/-!
# Dictionaries

Values under names, each name at most once.  Variables and functions are kept this way.  Order is
of no consequence, so a dictionary is a list with the name put in last at its front.
-/

set_option autoImplicit false

namespace RequestCondition

/-- Values under names. -/
structure Dictionary (α : Type) where
  entries : List (String × α)

namespace Dictionary

variable {α : Type}

def empty : Dictionary α := ⟨[]⟩

/-- The value under a name. -/
def find? (d : Dictionary α) (name : String) : Option α := d.entries.lookup name

/-- Takes away what stands under a name. -/
def erase (d : Dictionary α) (name : String) : Dictionary α :=
  ⟨d.entries.filter fun e ↦ e.1 != name⟩

/-- Puts a value under a name, in the place of the one that may stand there. -/
def insert (d : Dictionary α) (name : String) (a : α) : Dictionary α :=
  ⟨(name, a) :: (d.erase name).entries⟩

/-- The number of names. -/
def size (d : Dictionary α) : Nat := d.entries.length

def ofList (entries : List (String × α)) : Dictionary α :=
  entries.foldl (fun d e ↦ d.insert e.1 e.2) empty

@[simp] theorem find?_empty (name : String) : (empty : Dictionary α).find? name = none := rfl

private theorem lookup_filter_self (es : List (String × α)) (name : String) :
    (es.filter fun e ↦ e.1 != name).lookup name = none := by
  induction es with
  | nil => rfl
  | cons e es ih =>
    obtain ⟨key, a⟩ := e
    by_cases h : key = name
    · simp [h, ih]
    · have h' : (name == key) = false := by simpa using fun hn ↦ h hn.symm
      simp [h, List.lookup_cons, h', ih]

private theorem lookup_filter_of_ne (es : List (String × α)) {name other : String}
    (hne : other ≠ name) : (es.filter fun e ↦ e.1 != name).lookup other = es.lookup other := by
  induction es with
  | nil => rfl
  | cons e es ih =>
    obtain ⟨key, a⟩ := e
    by_cases h : key = name
    · subst h
      have h' : (other == key) = false := by simpa using hne
      simp [List.lookup_cons, h', ih]
    · simp [h, List.lookup_cons, ih]

@[simp] theorem find?_erase_self (d : Dictionary α) (name : String) :
    (d.erase name).find? name = none := lookup_filter_self d.entries name

theorem find?_erase_of_ne (d : Dictionary α) {name other : String} (h : other ≠ name) :
    (d.erase name).find? other = d.find? other := lookup_filter_of_ne d.entries h

@[simp] theorem find?_insert_self (d : Dictionary α) (name : String) (a : α) :
    (d.insert name a).find? name = some a := by
  simp [insert, find?]

theorem find?_insert_of_ne (d : Dictionary α) {name other : String} (a : α) (h : other ≠ name) :
    (d.insert name a).find? other = d.find? other := by
  have h' : (other == name) = false := by simpa using h
  have := d.find?_erase_of_ne h
  simpa [insert, find?, List.lookup_cons, h'] using this

/-- A value that was put in stands under its name. -/
theorem mem_of_find?_ofList {entries : List (String × α)} {name : String} {a : α}
    (h : (ofList entries).find? name = some a) : (name, a) ∈ entries := by
  have hfold : ∀ (es : List (String × α)) (d : Dictionary α),
      (es.foldl (fun d e ↦ d.insert e.1 e.2) d).find? name = some a →
        (name, a) ∈ es ∨ d.find? name = some a := by
    intro es
    induction es with
    | nil => exact fun d h ↦ .inr h
    | cons e es ih =>
      intro d h
      rcases ih (d.insert e.1 e.2) h with h | h
      · exact .inl (List.mem_cons_of_mem e h)
      · by_cases hne : name = e.1
        · subst hne
          rw [find?_insert_self, Option.some.injEq] at h
          subst h
          exact .inl List.mem_cons_self
        · rw [find?_insert_of_ne _ _ hne] at h
          exact .inr h
  rcases hfold entries empty h with h | h
  · exact h
  · simp at h

end Dictionary

end RequestCondition
