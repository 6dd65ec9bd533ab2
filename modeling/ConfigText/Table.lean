/-!
Tables: pairs in the order in which their keys first came. Writing to a key that is there keeps
its place.
-/

namespace ConfigText

structure Table (κ ν : Type) where
  entries : List (κ × ν)
  deriving DecidableEq

namespace Table

variable {κ ν : Type} [BEq κ]

def empty : Table κ ν := ⟨[]⟩

/-- The value at a key. -/
def find? (table : Table κ ν) (key : κ) : Option ν := table.entries.lookup key

/-- Pairs with the value at one key replaced, or with a new pair behind the others. -/
def insertInto (key : κ) (value : ν) : List (κ × ν) → List (κ × ν)
  | [] => [(key, value)]
  | (k, v) :: more => if key == k then (k, value) :: more else (k, v) :: insertInto key value more

def insert (table : Table κ ν) (key : κ) (value : ν) : Table κ ν :=
  ⟨insertInto key value table.entries⟩

def erase (table : Table κ ν) (key : κ) : Table κ ν := ⟨table.entries.filter (!key == ·.1)⟩

/-- Pairs written one after the other. -/
def ofList (pairs : List (κ × ν)) : Table κ ν :=
  pairs.foldl (fun table (key, value) => table.insert key value) empty

def keys (table : Table κ ν) : List κ := table.entries.map Prod.fst

def size (table : Table κ ν) : Nat := table.entries.length

/-- The same keys with other values. -/
def map {μ : Type} (f : ν → μ) (table : Table κ ν) : Table κ μ :=
  ⟨table.entries.map fun (key, value) => (key, f value)⟩

@[simp] theorem find?_empty (key : κ) : (empty : Table κ ν).find? key = none := rfl

theorem lookup_insertInto [LawfulBEq κ] (key key' : κ) (value : ν) (pairs : List (κ × ν)) :
    (insertInto key value pairs).lookup key' =
      if key' == key then some value else pairs.lookup key' := by
  induction pairs with
  | nil => cases h : key' == key <;> simp [insertInto, List.lookup_cons, h]
  | cons pair more ih =>
    obtain ⟨k, v⟩ := pair
    cases hk : key == k with
    | true =>
      obtain rfl := eq_of_beq hk
      cases h : key' == key <;> simp [insertInto, List.lookup_cons, h]
    | false =>
      cases h : key' == k with
      | true =>
        obtain rfl := eq_of_beq h
        have : (key' == key) = false := by
          rw [BEq.comm]; exact hk
        simp [insertInto, hk, this]
      | false => simp [insertInto, List.lookup_cons, hk, h, ih]

theorem find?_insert [LawfulBEq κ] (table : Table κ ν) (key key' : κ) (value : ν) :
    (table.insert key value).find? key' = if key' == key then some value else table.find? key' :=
  lookup_insertInto key key' value table.entries

end Table
end ConfigText
