import Mathlib
import Ambient.Table

/-!
# Tables and their keys

Storing keyed values one after another in a table: the keys of the result are those of the table and
of the values, each once, and values under distinct new keys are put behind the table as they are
(`insertAll_of_nodup`).  The second section restricts a table to some of its keys, which can be done
before or after an insertion.
-/

namespace Ambient

namespace Table

variable {α β : Type}

/-! ### Several insertions -/

section

variable {κ : Type} [DecidableEq κ] {t : Table α κ} {key : κ} {value : α} {pairs : List (κ × α)}

/-- The table with several values, each under its key. -/
def insertAll (t : Table α κ) (pairs : List (κ × α)) : Table α κ :=
  pairs.foldl (fun t entry => insert t entry.1 entry.2) t

lemma ofPairs_eq_insertAll (pairs : List (κ × α)) : ofPairs pairs = insertAll [] pairs :=
  rfl

lemma insertAll_cons (t : Table α κ) (entry : κ × α) (pairs : List (κ × α)) :
    insertAll t (entry :: pairs) = insertAll (insert t entry.1 entry.2) pairs :=
  rfl

/-- Values in a row are inserted one after the other. -/
lemma insertAll_append (t : Table α κ) (pairs pairs' : List (κ × α)) :
    insertAll t (pairs ++ pairs') = insertAll (insertAll t pairs) pairs' :=
  List.foldl_append ..

/-- An insertion adds its key and no other. -/
lemma mem_keys_insert {k : κ} : k ∈ keys (insert t key value) ↔ k = key ∨ k ∈ keys t := by
  rw [keys_insert]
  split_ifs with h
  · constructor
    · exact Or.inr
    · rintro (rfl | hk)
      · exact h
      · exact hk
  · simp [or_comm]

/-- Insertions add their keys and no others. -/
lemma mem_keys_insertAll {k : κ} :
    k ∈ keys (insertAll t pairs) ↔ k ∈ keys t ∨ k ∈ keys pairs := by
  induction pairs generalizing t with
  | nil => simp [insertAll, keys]
  | cons entry pairs ih =>
    rw [insertAll_cons, ih, mem_keys_insert]
    simp [keys, or_assoc, or_left_comm]

/-- An entry is the inserted one or has been there before. -/
lemma mem_of_mem_insert {entry : κ × α} (h : entry ∈ insert t key value) :
    entry = (key, value) ∨ entry ∈ t := by
  induction t with
  | nil => exact Or.inl (List.mem_singleton.mp h)
  | cons e t ih =>
    obtain ⟨k, v⟩ := e
    rw [insert] at h
    split_ifs at h with hk
    · subst hk
      exact (List.mem_cons.mp h).imp_right (List.mem_cons_of_mem _)
    · rcases List.mem_cons.mp h with rfl | h
      · exact Or.inr List.mem_cons_self
      · exact (ih h).imp_right (List.mem_cons_of_mem _)

/-- The inserted value is the one under its key. -/
lemma eq_of_mem_insert {entry : κ × α} (hnodup : (keys t).Nodup)
    (h : entry ∈ insert t key value) (hkey : entry.1 = key) : entry = (key, value) := by
  induction t with
  | nil => exact List.mem_singleton.mp h
  | cons e t ih =>
    obtain ⟨k, v⟩ := e
    obtain ⟨hfresh, hnodup⟩ := List.nodup_cons.mp hnodup
    rw [insert] at h
    split_ifs at h with hk
    · rcases List.mem_cons.mp h with rfl | h
      · rw [hk]
      · exact absurd (List.mem_map_of_mem h) (hkey.trans hk.symm ▸ hfresh)
    · rcases List.mem_cons.mp h with rfl | h
      · exact absurd hkey hk
      · exact ih hnodup h

/-- An entry is one of those inserted or has been there before. -/
lemma mem_of_mem_insertAll {entry : κ × α} (h : entry ∈ insertAll t pairs) :
    entry ∈ t ∨ entry ∈ pairs := by
  induction pairs generalizing t with
  | nil => exact Or.inl h
  | cons pair pairs ih =>
    rcases ih h with h | h
    · rcases mem_of_mem_insert h with rfl | h
      · exact Or.inr List.mem_cons_self
      · exact Or.inl h
    · exact Or.inr (List.mem_cons_of_mem _ h)

/-- A key of the values has one of their values in the end. -/
lemma mem_pairs_of_mem_insertAll {entry : κ × α} (hnodup : (keys t).Nodup)
    (h : entry ∈ insertAll t pairs) (hkey : entry.1 ∈ keys pairs) : entry ∈ pairs := by
  induction pairs generalizing t with
  | nil => simp [keys] at hkey
  | cons pair pairs ih =>
    rw [insertAll_cons] at h
    by_cases hlater : entry.1 ∈ keys pairs
    · exact List.mem_cons_of_mem _ (ih (nodup_keys_insert hnodup _ _) h hlater)
    · have hfst : entry.1 = pair.1 := (List.mem_cons.mp hkey).resolve_right hlater
      rcases mem_of_mem_insertAll h with hinsert | hpairs
      · obtain rfl := eq_of_mem_insert hnodup hinsert hfst
        exact List.mem_cons_self
      · exact List.mem_cons_of_mem _ hpairs

/-- Insertions repeat no key. -/
lemma nodup_keys_insertAll (h : (keys t).Nodup) : (keys (insertAll t pairs)).Nodup := by
  induction pairs generalizing t with
  | nil => exact h
  | cons entry pairs ih => exact ih (nodup_keys_insert h entry.1 entry.2)

/-- A value under a new key goes behind all others. -/
lemma insert_of_not_mem (h : key ∉ keys t) : insert t key value = t ++ [(key, value)] := by
  induction t with
  | nil => rfl
  | cons entry t ih =>
    obtain ⟨k, v⟩ := entry
    have hne : k ≠ key := fun hk => h (by simp [keys, hk])
    have hmem : key ∉ keys t := fun hm => h (List.mem_cons_of_mem k hm)
    rw [insert, if_neg hne, ih hmem, List.cons_append]

/-- Values under distinct new keys go behind all others in their order. -/
lemma insertAll_of_nodup (h : (keys (t ++ pairs)).Nodup) : insertAll t pairs = t ++ pairs := by
  induction pairs generalizing t with
  | nil => simp [insertAll]
  | cons entry pairs ih =>
    obtain ⟨k, v⟩ := entry
    have hfresh : k ∉ keys t := by
      intro hk
      simp only [keys, List.map_append, List.map_cons, List.nodup_append, List.mem_cons] at h hk
      exact h.2.2 k hk k (Or.inl rfl) rfl
    have happend : t ++ (k, v) :: pairs = t ++ [(k, v)] ++ pairs := by simp
    rw [insertAll_cons, insert_of_not_mem hfresh, ih (happend ▸ h), happend]

/-- Pairs with different keys are a table as they stand. -/
lemma ofPairs_of_nodup (h : (keys pairs).Nodup) : ofPairs pairs = pairs := by
  rw [ofPairs_eq_insertAll, insertAll_of_nodup (by simpa using h), List.nil_append]

/-- No key is repeated in a table that is made of pairs. -/
lemma nodup_keys_ofPairs (pairs : List (κ × α)) : (keys (ofPairs pairs)).Nodup :=
  nodup_keys_insertAll List.nodup_nil

end

/-! ### Lookup -/

variable {t : Table α} {key : Text} {value : α}

lemma hasKey_iff : hasKey t key = true ↔ key ∈ keys t := by
  simp [hasKey, keys]

lemma mem_of_get? (h : get? t key = some value) : (key, value) ∈ t := by
  induction t with
  | nil => simp [get?] at h
  | cons entry t ih =>
    obtain ⟨k, v⟩ := entry
    by_cases hk : key = k
    · subst hk
      obtain rfl : v = value := by simpa [get?] using h
      exact List.mem_cons_self
    · have htail : get? t key = some value := by
        rw [← h, get?, get?, List.lookup_cons, beq_eq_false_iff_ne.mpr hk]
      exact List.mem_cons_of_mem _ (ih htail)

lemma mem_keys_of_get? (h : get? t key = some value) : key ∈ keys t :=
  List.mem_map_of_mem (mem_of_get? h)

/-- Tables whose entries are related have the same keys if related entries have. -/
lemma keys_eq_of_forall₂ {R : Text × α → Text × β → Prop} {u : Table β}
    (hkeys : ∀ a b, R a b → b.1 = a.1) (h : List.Forall₂ R t u) : keys u = keys t := by
  have hfst : List.Forall₂ Eq (keys u) (keys t) :=
    List.rel_map (fun b a hab => hkeys a b hab) h.flip
  rwa [List.forall₂_eq_eq_eq] at hfst

/-! ### Restriction to some keys -/

/-- The entries whose key `P` holds of. -/
def restrict (P : Text → Bool) (t : Table α) : Table α :=
  t.filter fun entry => P entry.1

section

variable {P : Text → Bool}

@[simp] lemma restrict_nil : restrict P ([] : Table α) = [] :=
  rfl

lemma restrict_cons_of_pos {entry : Text × α} (h : P entry.1 = true) :
    restrict P (entry :: t) = entry :: restrict P t :=
  List.filter_cons_of_pos h

lemma restrict_cons_of_neg {entry : Text × α} (h : P entry.1 = false) :
    restrict P (entry :: t) = restrict P t :=
  List.filter_cons_of_neg (by simp [h])

/-- The entries that are kept are those whose key `P` holds of. -/
lemma mem_restrict {entry : Text × α} :
    entry ∈ restrict P t ↔ entry ∈ t ∧ P entry.1 = true :=
  List.mem_filter

/-- Under a key that `P` holds of the same value is found. -/
lemma get?_restrict (h : P key = true) : get? (restrict P t) key = get? t key := by
  induction t with
  | nil => rfl
  | cons entry t ih =>
    obtain ⟨k, v⟩ := entry
    simp only [get?] at ih ⊢
    cases hk : P k with
    | true =>
      rw [restrict_cons_of_pos hk, List.lookup_cons, List.lookup_cons, ih]
    | false =>
      have hne : (key == k) = false := by
        rw [beq_eq_false_iff_ne]
        rintro rfl
        exact absurd (h.symm.trans hk) (by decide)
      rw [restrict_cons_of_neg hk, List.lookup_cons, hne, ih]

/-- A restriction keeps an insertion under a key that it keeps, and nothing of any other. -/
lemma restrict_insert (t : Table α) (key : Text) (value : α) :
    restrict P (insert t key value) =
      if P key then insert (restrict P t) key value else restrict P t := by
  induction t with
  | nil => cases h : P key <;> simp [insert, restrict, h]
  | cons entry t ih =>
    obtain ⟨k, v⟩ := entry
    by_cases hk : k = key
    · subst hk
      rw [insert, if_pos rfl]
      cases h : P k with
      | true =>
        rw [restrict_cons_of_pos h, restrict_cons_of_pos h, insert, if_pos rfl, if_pos rfl]
      | false =>
        rw [restrict_cons_of_neg h, restrict_cons_of_neg h, if_neg Bool.false_ne_true]
    · rw [insert, if_neg hk]
      cases hP : P k with
      | true =>
        rw [restrict_cons_of_pos hP, restrict_cons_of_pos hP, ih, insert, if_neg hk]
        split_ifs <;> rfl
      | false => rw [restrict_cons_of_neg hP, restrict_cons_of_neg hP, ih]

/-- Tables in a row are restricted one by one. -/
lemma restrict_append (t u : Table α) : restrict P (t ++ u) = restrict P t ++ restrict P u :=
  List.filter_append ..

/-- A change that keeps the keys may be made before or after. -/
lemma restrict_map {f : Text × α → Text × β} (hf : ∀ entry, (f entry).1 = entry.1) :
    restrict P (t.map f) = (restrict P t).map f := by
  induction t with
  | nil => rfl
  | cons entry t ih =>
    rw [List.map_cons]
    cases h : P entry.1 with
    | true =>
      rw [restrict_cons_of_pos h, restrict_cons_of_pos ((hf entry).symm ▸ h), ih, List.map_cons]
    | false => rw [restrict_cons_of_neg h, restrict_cons_of_neg ((hf entry).symm ▸ h), ih]

/-- Entries that are related have related restrictions if their keys are the same. -/
lemma forall₂_restrict {R : Text × α → Text × β → Prop} {t : Table α} {u : Table β}
    (hkeys : ∀ a b, R a b → b.1 = a.1) (h : List.Forall₂ R t u) :
    List.Forall₂ R (restrict P t) (restrict P u) :=
  List.rel_filter (fun a b hab => by simp only [hkeys a b hab]) h

/-- A table with distinct keys has one entry under a key. -/
lemma restrict_eq_singleton {entry : Text × α} (hnodup : (keys t).Nodup) (h : entry ∈ t) :
    restrict (· = entry.1) t = [entry] := by
  induction t with
  | nil => simp at h
  | cons e t ih =>
    obtain ⟨hfresh, hnodup⟩ := List.nodup_cons.mp hnodup
    rcases List.mem_cons.mp h with rfl | hm
    · have hrest : restrict (· = entry.1) t = [] := by
        rw [restrict, List.filter_eq_nil_iff]
        intro e he hkey
        rw [decide_eq_true_eq] at hkey
        exact hfresh (hkey ▸ List.mem_map_of_mem he)
      rw [restrict_cons_of_pos (decide_eq_true rfl), hrest]
    · have hne : decide (e.1 = entry.1) = false := by
        rw [decide_eq_false_iff_not]
        intro hkey
        exact hfresh (hkey ▸ List.mem_map_of_mem hm)
      rw [restrict_cons_of_neg hne, ih hnodup hm]

end

end Table

end Ambient
