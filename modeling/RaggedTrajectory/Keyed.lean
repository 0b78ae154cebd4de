/-!
# Keyed entries

A list of entries that are found by their keys. Putting an entry in takes earlier ones with the same
key out.

* `get?_insert_self`, `get?_insert_ne`: an entry that is put in is found, and no other is changed.
* `get?_erase_self`, `get?_erase_ne`: an entry that is taken out is gone, and no other is.
-/

namespace RaggedTrajectory

/-- Entries with their keys. -/
abbrev Keyed (κ ν : Type) := List (κ × ν)

namespace Keyed

variable {κ ν : Type} [DecidableEq κ]

/-- The entry with a given key. -/
def get? (entries : Keyed κ ν) (key : κ) : Option ν :=
  (entries.find? fun entry => entry.1 = key).map Prod.snd

/-- The entries with other keys. -/
def erase (entries : Keyed κ ν) (key : κ) : Keyed κ ν :=
  entries.filter fun entry => entry.1 ≠ key

/-- Puts an entry in, in place of an earlier one. -/
def insert (entries : Keyed κ ν) (key : κ) (value : ν) : Keyed κ ν :=
  (key, value) :: erase entries key

theorem get?_cons (entries : Keyed κ ν) (key other : κ) (value : ν) :
    get? ((key, value) :: entries) other =
      if key = other then some value else get? entries other := by
  unfold get?
  rw [List.find?_cons]
  split <;> simp_all

theorem get?_erase_self (entries : Keyed κ ν) (key : κ) : get? (erase entries key) key = none := by
  induction entries with
  | nil => rfl
  | cons entry rest ih =>
    obtain ⟨k, v⟩ := entry
    by_cases h : k = key
    · simpa [erase, h] using ih
    · have kept : erase ((k, v) :: rest) key = (k, v) :: erase rest key := by simp [erase, h]
      rw [kept, get?_cons, if_neg h, ih]

theorem get?_erase_ne (entries : Keyed κ ν) {key other : κ} (h : other ≠ key) :
    get? (erase entries key) other = get? entries other := by
  induction entries with
  | nil => rfl
  | cons entry rest ih =>
    obtain ⟨k, v⟩ := entry
    by_cases hk : k = key
    · have gone : erase ((k, v) :: rest) key = erase rest key := by simp [erase, hk]
      rw [gone, get?_cons, if_neg (fun ho => h (ho.symm.trans hk)), ih]
    · have kept : erase ((k, v) :: rest) key = (k, v) :: erase rest key := by simp [erase, hk]
      rw [kept, get?_cons, get?_cons, ih]

theorem get?_insert_self (entries : Keyed κ ν) (key : κ) (value : ν) :
    get? (insert entries key value) key = some value := by
  rw [insert, get?_cons, if_pos rfl]

theorem get?_insert_ne (entries : Keyed κ ν) {key other : κ} (value : ν) (h : other ≠ key) :
    get? (insert entries key value) other = get? entries other := by
  rw [insert, get?_cons, if_neg h.symm, get?_erase_ne entries h]

end Keyed

end RaggedTrajectory
