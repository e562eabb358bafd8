import LineShell.Unicode.Script

/-!
Script extensions: code points that several scripts share, or one script other than their own, each
with the short names of the scripts that use it. Every other code point is used by its own script
only.
-/
namespace LineShell.Unicode.Script

/-- Shared code points, and the scripts that share them. -/
def shared : List (String × List String) :=
  [("b7",
    ["Avst", "Cari", "Copt", "Dupl", "Elba", "Geor", "Glag", "Gong", "Goth", "Grek", "Hani",
     "Latn", "Lydi", "Mahj", "Perm", "Shaw"]),
   ("2bc",
    ["Beng", "Cyrl", "Deva", "Latn", "Lisu", "Thai", "Toto"]),
   ("2c7 2c9-2cb 2d9",
    ["Bopo", "Latn"]),
   ("2cd",
    ["Latn", "Lisu"]),
   ("2d7",
    ["Latn", "Thai"]),
   ("300",
    ["Cher", "Copt", "Cyrl", "Grek", "Latn", "Perm", "Sunu", "Tale"]),
   ("301",
    ["Cher", "Cyrl", "Grek", "Latn", "Osge", "Sunu", "Tale", "Todr"]),
   ("302",
    ["Cher", "Cyrl", "Latn", "Tfng"]),
   ("303",
    ["Glag", "Latn", "Sunu", "Syrc", "Thai"]),
   ("304",
    ["Aghb", "Cher", "Copt", "Cyrl", "Goth", "Grek", "Latn", "Osge", "Syrc", "Tfng", "Todr"]),
   ("305",
    ["Copt", "Elba", "Glag", "Goth", "Kana", "Latn"]),
   ("306",
    ["Cyrl", "Grek", "Latn", "Perm", "Tfng"]),
   ("307",
    ["Copt", "Dupl", "Hebr", "Latn", "Perm", "Syrc", "Tale", "Tfng", "Todr"]),
   ("308",
    ["Armn", "Cyrl", "Dupl", "Goth", "Grek", "Hebr", "Latn", "Perm", "Syrc", "Tale", "Tfng"]),
   ("309",
    ["Latn", "Tfng"]),
   ("30a",
    ["Dupl", "Latn", "Syrc"]),
   ("30b",
    ["Cher", "Cyrl", "Latn", "Osge"]),
   ("30c",
    ["Cher", "Latn", "Tale"]),
   ("30d 310",
    ["Latn", "Sunu"]),
   ("30e",
    ["Ethi", "Latn"]),
   ("311",
    ["Cyrl", "Latn", "Todr"]),
   ("313",
    ["Grek", "Latn", "Perm", "Todr"]),
   ("320 325 32e",
    ["Latn", "Syrc"]),
   ("323",
    ["Cher", "Dupl", "Kana", "Latn", "Syrc", "Tfng"]),
   ("324",
    ["Cher", "Dupl", "Latn", "Syrc"]),
   ("32d",
    ["Latn", "Sunu", "Syrc"]),
   ("330",
    ["Cher", "Latn", "Syrc"]),
   ("331",
    ["Aghb", "Cher", "Goth", "Latn", "Sunu", "Thai"]),
   ("342 345 1dc0-1dc1",
    ["Grek"]),
   ("358",
    ["Latn", "Osge"]),
   ("35e",
    ["Aghb", "Latn", "Todr"]),
   ("363-36f",
    ["Latn"]),
   ("374-375",
    ["Copt", "Grek"]),
   ("483",
    ["Cyrl", "Perm"]),
   ("484 487 2e43 a66f",
    ["Cyrl", "Glag"]),
   ("485-486",
    ["Cyrl", "Latn"]),
   ("589",
    ["Armn", "Geor", "Glag"]),
   ("60c 61b",
    ["Arab", "Gara", "Nkoo", "Rohg", "Syrc", "Thaa", "Yezi"]),
   ("61c",
    ["Arab", "Syrc", "Thaa"]),
   ("61f",
    ["Adlm", "Arab", "Gara", "Nkoo", "Rohg", "Syrc", "Thaa", "Yezi"]),
   ("640",
    ["Adlm", "Arab", "Mand", "Mani", "Ougr", "Phlp", "Rohg", "Sogd", "Syrc"]),
   ("64b-655 670",
    ["Arab", "Syrc"]),
   ("660-669",
    ["Arab", "Thaa", "Yezi"]),
   ("6d4",
    ["Arab", "Rohg"]),
   ("951",
    ["Beng", "Deva", "Gran", "Gujr", "Guru", "Knda", "Latn", "Mlym", "Nand", "Newa", "Orya",
     "Shrd", "Taml", "Telu", "Tirh"]),
   ("952",
    ["Beng", "Deva", "Gran", "Gujr", "Guru", "Knda", "Latn", "Mlym", "Newa", "Orya", "Taml",
     "Telu", "Tirh"]),
   ("964",
    ["Beng", "Deva", "Dogr", "Gong", "Gonm", "Gran", "Gujr", "Guru", "Knda", "Mahj", "Mlym",
     "Nand", "Onao", "Orya", "Sind", "Sinh", "Sylo", "Takr", "Taml", "Telu", "Tirh"]),
   ("965",
    ["Beng", "Deva", "Dogr", "Gong", "Gonm", "Gran", "Gujr", "Gukh", "Guru", "Knda", "Limb",
     "Mahj", "Mlym", "Nand", "Onao", "Orya", "Sind", "Sinh", "Sylo", "Takr", "Taml", "Telu",
     "Tirh"]),
   ("966-96f",
    ["Deva", "Dogr", "Kthi", "Mahj"]),
   ("9e6-9ef",
    ["Beng", "Cakm", "Sylo"]),
   ("a66-a6f",
    ["Guru", "Mult"]),
   ("ae6-aef",
    ["Gujr", "Khoj"]),
   ("be6-bf3 11301 11303 1133b-1133c 11fd0-11fd1 11fd3",
    ["Gran", "Taml"]),
   ("ce6-cef",
    ["Knda", "Nand", "Tutg"]),
   ("1040-1049",
    ["Cakm", "Mymr", "Tale"]),
   ("10fb",
    ["Geor", "Glag", "Latn"]),
   ("16eb-16ed",
    ["Runr"]),
   ("1735-1736",
    ["Buhd", "Hano", "Tagb", "Tglg"]),
   ("1802-1803 1805",
    ["Mong", "Phag"]),
   ("1cd0 1cd2",
    ["Beng", "Deva", "Gran", "Knda"]),
   ("1cd1 1cd4 1cdb 1cde-1cdf 1ce3-1ce8 1cec 1cee-1cf1",
    ["Deva"]),
   ("1cd3",
    ["Deva", "Gran", "Knda"]),
   ("1cd5",
    ["Beng", "Deva", "Newa", "Telu", "Tirh"]),
   ("1cd6",
    ["Beng", "Deva", "Telu"]),
   ("1cd7",
    ["Deva", "Newa", "Shrd"]),
   ("1cd8",
    ["Beng", "Deva", "Newa", "Telu"]),
   ("1cd9 1cdc-1cdd 1ce0",
    ["Deva", "Shrd"]),
   ("1cda",
    ["Deva", "Knda", "Mlym", "Orya", "Taml", "Telu"]),
   ("1ce1 1cf5-1cf6",
    ["Beng", "Deva"]),
   ("1ce2",
    ["Deva", "Newa", "Tirh"]),
   ("1ce9",
    ["Deva", "Nand", "Newa"]),
   ("1cea",
    ["Beng", "Deva", "Shrd"]),
   ("1ceb",
    ["Deva", "Newa"]),
   ("1ced",
    ["Beng", "Deva", "Newa", "Shrd"]),
   ("1cf2",
    ["Beng", "Deva", "Gran", "Knda", "Mlym", "Nand", "Orya", "Sinh", "Telu", "Tirh", "Tutg"]),
   ("1cf3 1cf8-1cf9",
    ["Deva", "Gran"]),
   ("1cf4",
    ["Deva", "Gran", "Knda", "Tutg"]),
   ("1cf7",
    ["Beng"]),
   ("1cfa",
    ["Nand"]),
   ("1df8",
    ["Cyrl", "Latn", "Syrc"]),
   ("1dfa",
    ["Syrc"]),
   ("202f",
    ["Latn", "Mong", "Phag"]),
   ("204f",
    ["Adlm", "Arab"]),
   ("205a",
    ["Cari", "Geor", "Glag", "Hung", "Lyci", "Orkh"]),
   ("205d",
    ["Cari", "Grek", "Hung", "Mero"]),
   ("20f0",
    ["Deva", "Gran", "Latn"]),
   ("2e17",
    ["Copt", "Latn"]),
   ("2e30",
    ["Avst", "Orkh"]),
   ("2e31",
    ["Avst", "Cari", "Geor", "Hung", "Kthi", "Lydi", "Samr"]),
   ("2e3c 1bca0-1bca3",
    ["Dupl"]),
   ("2e41",
    ["Adlm", "Arab", "Hung"]),
   ("2ff0-2fff 31ef",
    ["Hani", "Tang"]),
   ("3001",
    ["Bopo", "Hang", "Hani", "Hira", "Kana", "Mong", "Yiii"]),
   ("3002",
    ["Bopo", "Hang", "Hani", "Hira", "Kana", "Mong", "Phag", "Yiii"]),
   ("3003 3013 301c-301f 3030 3037 fe45-fe46",
    ["Bopo", "Hang", "Hani", "Hira", "Kana"]),
   ("3006 303e-303f 3190-319f 31c0-31e5 3220-3247 3280-32b0 32c0-32cb 32ff 3358-3370 337b-337f
    33e0-33fe 1d360-1d371 1f250-1f251",
    ["Hani"]),
   ("3008-3009",
    ["Bopo", "Hang", "Hani", "Hira", "Kana", "Mong", "Tibt", "Yiii"]),
   ("300a-300b",
    ["Bopo", "Hang", "Hani", "Hira", "Kana", "Lisu", "Mong", "Tibt", "Yiii"]),
   ("300c-3011 3014-301b 30fb ff61-ff65",
    ["Bopo", "Hang", "Hani", "Hira", "Kana", "Yiii"]),
   ("302a-302d",
    ["Bopo", "Hani"]),
   ("3031-3035 3099-309c 30a0 30fc ff70 ff9e-ff9f",
    ["Hira", "Kana"]),
   ("303c-303d",
    ["Hani", "Hira", "Kana"]),
   ("a700-a707",
    ["Hani", "Latn"]),
   ("a830-a832",
    ["Deva", "Dogr", "Gujr", "Guru", "Khoj", "Knda", "Kthi", "Mahj", "Mlym", "Modi", "Nand",
     "Shrd", "Sind", "Takr", "Tirh", "Tutg"]),
   ("a833-a835",
    ["Deva", "Dogr", "Gujr", "Guru", "Khoj", "Knda", "Kthi", "Mahj", "Modi", "Nand", "Shrd",
     "Sind", "Takr", "Tirh", "Tutg"]),
   ("a836-a837 a839",
    ["Deva", "Dogr", "Gujr", "Guru", "Khoj", "Kthi", "Mahj", "Modi", "Sind", "Takr", "Tirh"]),
   ("a838",
    ["Deva", "Dogr", "Gujr", "Guru", "Khoj", "Kthi", "Mahj", "Modi", "Shrd", "Sind", "Takr",
     "Tirh"]),
   ("a8f1",
    ["Beng", "Deva", "Tutg"]),
   ("a8f3",
    ["Deva", "Taml"]),
   ("a92e",
    ["Kali", "Latn", "Mymr"]),
   ("a9cf",
    ["Bugi", "Java"]),
   ("fd3e-fd3f",
    ["Arab", "Nkoo"]),
   ("fdf2 fdfd",
    ["Arab", "Thaa"]),
   ("10100-10101",
    ["Cpmn", "Cprt", "Linb"]),
   ("10102 10137-1013f",
    ["Cprt", "Linb"]),
   ("10107-10133",
    ["Cprt", "Lina", "Linb"]),
   ("102e0-102fb",
    ["Arab", "Copt"]),
   ("10af2",
    ["Mani", "Ougr"])]

/-- The code points that a script uses, by its short name; `own` are those of the script itself. -/
def extended (short : String) (own : CodeSet) : CodeSet :=
  let foreign := shared.filter fun (_, scripts) => !scripts.contains short
  let used := shared.filter fun (_, scripts) => scripts.contains short
  (own.diff (.unions (foreign.map fun (ranges, _) => .ofText ranges))).union
    (.unions (used.map fun (ranges, _) => .ofText ranges))

end LineShell.Unicode.Script
