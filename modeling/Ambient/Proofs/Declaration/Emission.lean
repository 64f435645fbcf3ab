import Mathlib
import Ambient.Declaration.Emission
import Ambient.Proofs.Run

/-!
# How a symbol is declared

A declaration that is made is made in three steps: the symbol itself is described, each of its
members is described (`DescribedMembers`), and the text is put together from these parts.
`ofSymbol_eq_ok` says so once for all that is proved about declarations; several symbols are declared
one by one (`forall₂_of_ofSymbols`).
-/

namespace Ambient

namespace Declaration

variable {settings : Settings} {s s' : Symbol} {owner : Text} {members : List (Text × Member)}
  {ms : List DescribedMember} {d : Declaration}

/-! ### Members -/

/-- The members of an owner in their order, each with its description. -/
structure DescribedMembers (settings : Settings) (owner : Text) (members : List (Text × Member))
    (ms : List DescribedMember) : Prop where
  keyed : ms.map (fun m => (m.key, m.member)) = members
  described : ∀ m ∈ ms,
    (Description.ofEntry settings owner m.member.toEntry true true).Returns m.description

lemma describedMembers_nil : DescribedMembers settings owner members [] ↔ members = [] := by
  constructor
  · rintro ⟨hkeyed, -⟩
    exact hkeyed.symm
  · rintro rfl
    exact ⟨rfl, by simp⟩

lemma describedMembers_cons {m : DescribedMember} :
    DescribedMembers settings owner members (m :: ms) ↔
      ∃ rest, members = (m.key, m.member) :: rest ∧
        (Description.ofEntry settings owner m.member.toEntry true true).Returns m.description ∧
        DescribedMembers settings owner rest ms := by
  constructor
  · rintro ⟨rfl, hdescribed⟩
    obtain ⟨hm, hms⟩ := List.forall_mem_cons.mp hdescribed
    exact ⟨_, rfl, hm, rfl, hms⟩
  · rintro ⟨_, rfl, hm, rfl, hms⟩
    exact ⟨rfl, List.forall_mem_cons.mpr ⟨hm, hms⟩⟩

/-- Members of two lists in a row are described in two lists in a row. -/
lemma describedMembers_append {members' : List (Text × Member)}
    (h : DescribedMembers settings owner (members ++ members') ms) :
    ∃ ms₁ ms₂, ms = ms₁ ++ ms₂ ∧ DescribedMembers settings owner members ms₁ ∧
      DescribedMembers settings owner members' ms₂ := by
  obtain ⟨hkeyed, hdescribed⟩ := h
  obtain ⟨ms₁, ms₂, rfl, rfl, rfl⟩ := List.map_eq_append_iff.mp hkeyed
  obtain ⟨h₁, h₂⟩ := List.forall_mem_append.mp hdescribed
  exact ⟨ms₁, ms₂, rfl, ⟨rfl, h₁⟩, ⟨rfl, h₂⟩⟩

/-- Members are described without a failure if each of them has its description. -/
lemma describeMembers_eq_none :
    (describeMembers settings owner members).value = (ms, none) ↔
      DescribedMembers settings owner members ms := by
  induction members generalizing ms with
  | nil =>
    constructor
    · intro h
      obtain rfl : [] = ms := congrArg Prod.fst h
      exact describedMembers_nil.mpr rfl
    · rintro ⟨hkeyed, -⟩
      obtain rfl : ms = [] := List.map_eq_nil_iff.mp hkeyed
      rfl
  | cons m members ih =>
    obtain ⟨key, m⟩ := m
    rw [describeMembers, Logged.value_bind]
    cases hvalue : (Description.ofEntry settings owner m.toEntry true true).run.value with
    | error failure =>
      constructor
      · intro h
        cases h
      · intro h
        cases ms with
        | nil => cases describedMembers_nil.mp h
        | cons n ns =>
          obtain ⟨_, hcons, hn, -⟩ := describedMembers_cons.mp h
          cases hcons
          cases hvalue.symm.trans hn
    | ok description =>
      simp only [Logged.value_bind, Logged.value_pure]
      constructor
      · intro h
        obtain ⟨rfl, hnone⟩ := Prod.mk.inj h
        exact describedMembers_cons.mpr ⟨members, rfl, hvalue, ih.mp (Prod.ext rfl hnone)⟩
      · intro h
        cases ms with
        | nil => cases describedMembers_nil.mp h
        | cons n ns =>
          obtain ⟨_, hcons, hn, hns⟩ := describedMembers_cons.mp h
          cases hcons
          obtain rfl : description = n.description := Except.ok.inj (hvalue.symm.trans hn)
          rw [ih.mpr hns]

/-! ### Symbols -/

/-- How a symbol is declared, step by step. -/
lemma ofSymbol_eq_ok :
    (ofSymbol settings s).value = (.ok d, s') ↔
      ∃ header ms text,
        (Description.ofEntry settings s.name s.toEntry false (s.kind = .functionKind)).Returns
          header ∧
        DescribedMembers settings s.name s.keyedMembers ms ∧
        s' = s.withMembers (ms.map DescribedMember.revised) ∧
        (textOf settings s' (ofParts s' header ms)).Returns text ∧
        d = { ofParts s' header ms with text } := by
  unfold ofSymbol
  rw [Logged.value_bind]
  cases hheader : (Description.ofEntry settings s.name s.toEntry false
      (s.kind = .functionKind)).run.value with
  | error failure =>
    constructor
    · intro h
      cases (Prod.mk.inj h).1
    · rintro ⟨header, _, _, hreturns, -⟩
      cases hheader.symm.trans hreturns
  | ok header =>
    simp only [Logged.value_bind]
    constructor
    · intro h
      cases hms : (describeMembers settings s.name s.keyedMembers).value with
      | mk ms failure =>
        cases failure with
        | some failure =>
          rw [hms] at h
          cases (Prod.mk.inj h).1
        | none =>
          rw [hms] at h
          obtain ⟨hd, rfl⟩ := Prod.mk.inj h
          obtain ⟨text, htext, rfl⟩ := Except.map_eq_ok.mp hd
          exact ⟨header, ms, text, hheader, describeMembers_eq_none.mp hms, rfl, htext, rfl⟩
    · rintro ⟨header', ms, text, hheader', hms, rfl, htext, rfl⟩
      obtain rfl : header = header' := Except.ok.inj (hheader.symm.trans hheader')
      rw [describeMembers_eq_none.mpr hms]
      exact Prod.ext (Except.map_eq_ok.mpr ⟨text, htext, rfl⟩) rfl

/-- A symbol is declared under its own name. -/
lemma name_of_ofSymbol (h : (ofSymbol settings s).value = (.ok d, s')) : d.name = s.name := by
  obtain ⟨header, ms, text, -, -, rfl, -, rfl⟩ := ofSymbol_eq_ok.mp h
  rfl

/-- Symbols are declared one by one, each of them from itself alone. -/
lemma forall₂_of_ofSymbols {all symbols : Table Symbol} {ds : List Declaration}
    (h : (ofSymbols settings all).value = (.ok ds, symbols)) :
    List.Forall₂ (fun e d => ∃ s', (ofSymbol settings e.2).value = (.ok d, s')) all ds ∧
      List.Forall₂ (fun e e' => e'.1 = e.1 ∧ ∃ d, (ofSymbol settings e.2).value = (.ok d, e'.2))
        all symbols := by
  induction all generalizing ds symbols with
  | nil =>
    obtain ⟨hds, rfl⟩ := Prod.mk.inj h
    obtain rfl := Except.ok.inj hds
    exact ⟨List.Forall₂.nil, List.Forall₂.nil⟩
  | cons e all ih =>
    obtain ⟨name, s⟩ := e
    rw [ofSymbols, Logged.value_bind] at h
    cases hs : (ofSymbol settings s).value with
    | mk result s' =>
      cases result with
      | error failure =>
        rw [hs] at h
        cases (Prod.mk.inj h).1
      | ok d =>
        rw [hs, Logged.value_bind] at h
        obtain ⟨hds, rfl⟩ := Prod.mk.inj h
        obtain ⟨ds', hds', rfl⟩ := Except.map_eq_ok.mp hds
        obtain ⟨hdeclared, hsymbols⟩ := ih (Prod.ext hds' rfl)
        exact ⟨List.Forall₂.cons ⟨s', hs⟩ hdeclared, List.Forall₂.cons ⟨rfl, d, hs⟩ hsymbols⟩

end Declaration

end Ambient
