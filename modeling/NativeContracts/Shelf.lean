-- Values under names, one value a name.

namespace NativeContracts

structure Shelf (α : Type) where
  entries : List (String × α) := []

namespace Shelf

variable {α : Type}

def empty : Shelf α := ⟨[]⟩

-- Replaces the value that stood under the name.
def put (shelf : Shelf α) (name : String) (value : α) : Shelf α :=
  ⟨(name, value) :: shelf.entries.filter fun entry => entry.1 ≠ name⟩

def get? (shelf : Shelf α) (name : String) : Option α := shelf.entries.lookup name

def size (shelf : Shelf α) : Nat := shelf.entries.length

@[simp] theorem get?_put_self (shelf : Shelf α) (name : String) (value : α) :
    (shelf.put name value).get? name = some value := by
  simp [get?, put]

theorem get?_put_of_ne (shelf : Shelf α) {name other : String} (value : α) (hne : other ≠ name) :
    (shelf.put name value).get? other = shelf.get? other := by
  have hfalse : (other == name) = false := beq_false_of_ne hne
  simp only [get?, put, List.lookup_cons, hfalse]
  induction shelf.entries with
  | nil => rfl
  | cons entry rest ih =>
    obtain ⟨key, held⟩ := entry
    by_cases h : key = name
    · subst h
      simpa [List.lookup_cons, hfalse] using ih
    · simp only [ne_eq, decide_not] at ih
      simp [h, List.lookup_cons, ih]

end Shelf

end NativeContracts
