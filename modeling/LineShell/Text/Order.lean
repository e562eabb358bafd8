/-!
The order of texts by code points, and sorting by it.
-/
namespace LineShell.Text

/-- Compares two texts at the first code point in which they differ; a text comes before its
extensions. -/
def compare (a b : String) : Ordering := List.compareLex (compareOn Char.toNat) a.toList b.toList

/-- Whether `a` does not come after `b`. -/
def le (a b : String) : Bool := (compare a b).isLE

/-- Sorts texts by code points. -/
def sort (texts : List String) : List String := texts.mergeSort le

end LineShell.Text
