import LineShell.Unicode.Case

/-!
The code points that a change of case alters. Most of them move under the maps of letter case; the
tables here hold those that become several letters or change in one direction only.
-/
namespace LineShell.Unicode.Property

/-- The code points that differ from their lower-case form. -/
def changesLowercased : CodeSet := .ofCodes (0x130 :: lowercaseMap.moved)

/-- The code points that differ from their upper-case form. -/
def changesUppercased : CodeSet :=
  (CodeSet.ofCodes lowercaseMap.reached).union (.ofText
    "b5 131 149 17f 1c5 1c8 1cb 1f0 1f2 345 390 3b0 3c2 3d0-3d1 3d5-3d6 3f0-3f1 3f5 587 1c80-1c88
     1e96-1e9b 1f50 1f52 1f54 1f56 1f88-1f8f 1f98-1f9f 1fa8-1faf 1fb2 1fb4 1fb6-1fb7 1fbc 1fbe
     1fc2 1fc4 1fc6-1fc7 1fcc 1fd2-1fd3 1fd6-1fd7 1fe2-1fe4 1fe6-1fe7 1ff2 1ff4 1ff6-1ff7 1ffc
     fb00-fb06 fb13-fb17")

/-- The code points that differ from their title-case form. -/
def changesTitlecased : CodeSet :=
  (changesUppercased.diff (.ofText
    "1c5 1c8 1cb 1f2 10d0-10fa 10fd-10ff 1f88-1f8f 1f98-1f9f 1fa8-1faf 1fbc 1fcc 1ffc")).union
    (.ofText "1c4 1c7 1ca 1f1")

/-- The code points that differ from one of their forms. -/
def changesCasemapped : CodeSet :=
  .unions [changesLowercased, changesUppercased, changesTitlecased]

/-- The code points that differ from the form in which case is forgotten. -/
def changesCasefolded : CodeSet :=
  ((CodeSet.ofCodes foldMap.moved).diff (.ofText "19b 264 390 3b0 1fbe")).union (.ofText
    "df 130 149 587 1e9a 1f80-1f87 1f90-1f97 1fa0-1fa7 1fb2-1fb4 1fb7 1fc2-1fc4 1fc7 1ff2-1ff4 1ff7
     a7cb a7dc fb00-fb04 fb06 fb13-fb17")

end LineShell.Unicode.Property
