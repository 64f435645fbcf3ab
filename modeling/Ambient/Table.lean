import Ambient.Text.Basic

/-!
# Tables

A table maps keys to values and remembers the order in which its keys first appeared.  Storing a
value under a key that is present replaces the value and leaves the key where it stands.  The keys are
texts unless something else is said.
-/

namespace Ambient

/-- A list of keyed values in the order of their first insertion. -/
abbrev Table (α : Type) (κ : Type := Text) := List (κ × α)

namespace Table

variable {α κ : Type}

/-- The keys, in order. -/
def keys (t : Table α κ) : List κ :=
  t.map Prod.fst

/-- The values, in order. -/
def values (t : Table α κ) : List α :=
  t.map Prod.snd

/-- The value stored under a key. -/
def get? (t : Table α) (key : Text) : Option α :=
  t.lookup key

/-- Whether a key is present. -/
def hasKey (t : Table α) (key : Text) : Bool :=
  t.any fun entry => entry.1 = key

variable [DecidableEq κ]

/-- The table with `value` under `key`. -/
def insert (t : Table α κ) (key : κ) (value : α) : Table α κ :=
  match t with
  | [] => [(key, value)]
  | (k, v) :: t => if k = key then (k, value) :: t else (k, v) :: insert t key value

/-- The table of a list of pairs: the first place of a key and its last value. -/
def ofPairs (pairs : List (κ × α)) : Table α κ :=
  pairs.foldl (fun t entry => insert t entry.1 entry.2) []

/-! ### The keys after an insertion -/

/-- An insertion puts a new key behind the others, and leaves the keys if it is among them. -/
theorem keys_insert (t : Table α κ) (key : κ) (value : α) :
    keys (insert t key value) = if key ∈ keys t then keys t else keys t ++ [key] := by
  induction t with
  | nil => simp [insert, keys]
  | cons entry t ih =>
    obtain ⟨k, v⟩ := entry
    by_cases h : k = key
    · simp [insert, keys, h]
    · have h' : ¬ key = k := fun e => h e.symm
      simp only [keys] at ih
      by_cases hm : key ∈ t.map Prod.fst
      · simp [insert, keys, h, ih, hm]
      · simp [insert, keys, h, h', ih, hm]

/-- No key is repeated by an insertion. -/
theorem nodup_keys_insert {t : Table α κ} (h : (keys t).Nodup) (key : κ) (value : α) :
    (keys (insert t key value)).Nodup := by
  rw [keys_insert]
  split
  · exact h
  · next hm =>
    rw [List.nodup_append]
    refine ⟨h, by simp, ?_⟩
    intro a ha b hb
    rw [List.mem_singleton] at hb
    exact fun e => hm (hb ▸ e ▸ ha)

end Table

end Ambient
