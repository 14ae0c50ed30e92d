import OperatorDispatch.OrderedMap

/-!
# Attributes

Spans and counters carry attributes, a map from names to texts.  Two maps with
the same entries in different orders stand for the same attributes, so they
are kept sorted by name, in which form equal maps are equal lists.
-/

namespace OperatorDispatch

/-- Attributes in ascending order of their names. -/
abbrev Attributes := List (String × String)

namespace Attributes

/-- The attributes with one more entry, before the first greater name. -/
def insertSorted (e : String × String) : Attributes → Attributes
  | [] => [e]
  | f :: fs => if e.1 < f.1 then e :: f :: fs else f :: insertSorted e fs

/-- The entries of a map in ascending order of their names. -/
def ofMap (m : OrderedMap String String) : Attributes :=
  m.entries.foldr insertSorted []

/-- The order of reports: entry by entry, by name and then by text. -/
def before : Attributes → Attributes → Bool
  | _, [] => false
  | [], _ :: _ => true
  | (k, v) :: es, (k', v') :: fs =>
    if k ≠ k' then decide (k < k')
    else if v ≠ v' then decide (v < v')
    else before es fs

def names (a : Attributes) : List String :=
  a.map Prod.fst

end Attributes

end OperatorDispatch
