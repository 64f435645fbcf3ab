import Mathlib
import Ambient.Failure

/-!
# Runs that give a result

A run is taken apart at its binds: it gives a result exactly if its first part gives one and the rest
gives the result from there.  `Run.Returns` says so for a run with warnings, whose warnings do not
matter, and the first section says the same for a result or a failure alone.  `Run.Fails` is the other
way a run can end.
-/

namespace Ambient

/-- What a list is related to by members comes from one of them. -/
lemma exists_of_mem_forall₂ {α β : Type} {R : α → β → Prop} {as : List α} {bs : List β}
    (h : List.Forall₂ R as bs) {b : β} (hb : b ∈ bs) : ∃ a ∈ as, R a b := by
  induction h with
  | nil => simp at hb
  | @cons a b' as bs hab _ ih =>
    rcases List.mem_cons.mp hb with rfl | hb
    · exact ⟨a, List.mem_cons_self, hab⟩
    · obtain ⟨a', ha', hab'⟩ := ih hb
      exact ⟨a', List.mem_cons_of_mem a ha', hab'⟩

/-! ### Results or failures -/

namespace Except

variable {ε α β : Type}

lemma pure_eq_ok {a b : α} : (pure a : Except ε α) = .ok b ↔ a = b := by
  simp [pure, Except.pure]

/-- Two steps succeed just if the first does and the second does with its result. -/
lemma bind_eq_ok {x : Except ε α} {f : α → Except ε β} {b : β} :
    (x >>= f) = .ok b ↔ ∃ a, x = .ok a ∧ f a = .ok b := by
  cases x <;> simp [bind, Except.bind]

lemma map_eq_ok {x : Except ε α} {f : α → β} {b : β} :
    x.map f = .ok b ↔ ∃ a, x = .ok a ∧ f a = b := by
  cases x <;> simp [Except.map]

lemma toOption_eq_some {x : Except ε α} {a : α} : x.toOption = some a ↔ x = .ok a := by
  cases x <;> simp [Except.toOption]

/-- A result with what comes beside it. -/
lemma eq_of_toOption_fst {x : Except ε α × β} {a : α} (h : x.1.toOption = some a) :
    x = (.ok a, x.2) :=
  Prod.ext (toOption_eq_some.mp h) rfl

/-- All items give a result if each of them does. -/
lemma mapM_eq_ok {f : α → Except ε β} {as : List α} {bs : List β} :
    as.mapM f = .ok bs ↔ List.Forall₂ (fun a b => f a = .ok b) as bs := by
  induction as generalizing bs with
  | nil => cases bs <;> simp [pure_eq_ok]
  | cons a as ih =>
    simp only [List.mapM_cons, bind_eq_ok, ih, pure_eq_ok]
    constructor
    · rintro ⟨b, hb, bs', hbs, rfl⟩
      exact List.Forall₂.cons hb hbs
    · rintro (_ | ⟨hb, hbs⟩)
      exact ⟨_, hb, _, hbs, rfl⟩

/-- If each item gives a result, all of them do, and each result is one for its item. -/
lemma exists_mapM_eq_ok {f : α → Except ε β} {P : α → β → Prop} {as : List α}
    (h : ∀ a ∈ as, ∃ b, f a = .ok b ∧ P a b) :
    ∃ bs, as.mapM f = .ok bs ∧ List.Forall₂ P as bs := by
  simp only [mapM_eq_ok]
  induction as with
  | nil => exact ⟨[], List.Forall₂.nil, List.Forall₂.nil⟩
  | cons a as ih =>
    obtain ⟨⟨b, hb, hab⟩, has⟩ := List.forall_mem_cons.mp h
    obtain ⟨bs, hbs, hall⟩ := ih has
    exact ⟨b :: bs, List.Forall₂.cons hb hbs, List.Forall₂.cons hab hall⟩

end Except

/-! ### Results with warnings -/

namespace Run

variable {α β : Type} {x : Run α} {f : α → Run β} {a a' : α} {b : β}

/-- A run gives a result. -/
def Returns (x : Run α) (a : α) : Prop :=
  x.run.value = .ok a

/-- A run gives one result at most. -/
lemma Returns.unique (h : Returns x a) (h' : Returns x a') : a = a' :=
  Except.ok.inj (h.symm.trans h')

/-- A run gives a result just if it can be seen. -/
lemma returns_iff_toOption : Returns x a ↔ x.run.value.toOption = some a :=
  Except.toOption_eq_some.symm

lemma returns_pure : Returns (pure a) a' ↔ a = a' :=
  Except.ok.injEq a a' ▸ Iff.rfl

/-- A run that fails gives no result. -/
lemma not_returns_throw (failure : Failure) : ¬ Returns (throw failure : Run α) a := by
  simp [Returns]

/-- Two runs give a result just if the first does and the second does with it. -/
lemma returns_bind : Returns (x >>= f) b ↔ ∃ a, Returns x a ∧ Returns (f a) b := by
  have hrun : (x >>= f).run.value = match x.run.value with
      | .ok a => (f a).run.value
      | .error failure => .error failure := by
    rw [ExceptT.run_bind, Logged.value_bind]
    cases x.run.value <;> rfl
  unfold Returns
  rw [hrun]
  cases x.run.value <;> simp

/-- A step that only warns gives its value. -/
lemma returns_ofLogged {x : Logged α} : Returns (ofLogged x) a ↔ x.value = a :=
  Except.ok.injEq x.value a ▸ Iff.rfl

/-- What goes on from a result with warnings goes on from the result. -/
lemma returns_ofLogged_bind {x : Logged α} : Returns (ofLogged x >>= f) b ↔ Returns (f x.value) b := by
  simp [returns_bind, returns_ofLogged]

/-- A run ends in a failure. -/
def Fails (x : Run α) (failure : Failure) : Prop :=
  x.run.value = .error failure

/-- What follows a failure does not change it. -/
lemma Fails.bind {failure : Failure} (h : Fails x failure) (f : α → Run β) :
    Fails (x >>= f) failure := by
  have hrun : x.run.value = .error failure := h
  rw [Fails, ExceptT.run_bind, Logged.value_bind, hrun]
  rfl

/-- A result or a failure as a run. -/
lemma returns_mk {x : Except Failure α} : Returns (ExceptT.mk (pure x)) a ↔ x = .ok a :=
  Iff.rfl

/-- A warning does not end a run. -/
lemma returns_warn {w : Warning} {u : Unit} : Returns (warn w) u :=
  rfl

end Run

end Ambient
