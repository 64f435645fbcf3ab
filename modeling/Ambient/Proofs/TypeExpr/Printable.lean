import Mathlib
import Ambient.Proofs.TypeExpr.RoundTrip

/-!
# Expressions that read as themselves

An expression is *printable* if the notation can tell it from every other one: no choice stands
inside a choice, no function with a return type stands in front of another member, an arrow function
has a return type, and no node has the shape that the reader gives to another constructor.  Each
printable expression is what its own text reads as (`reread_eq_self`).
-/

namespace Ambient

namespace TypeExpr

open Token (IsName)

/-! ### Printable expressions -/

/-- Parameters with names that are tokens, where only those with a name may be left out. -/
def ParamsPrintable (ps : List TypeParam) : Prop :=
  ∀ p ∈ ps, (∀ name ∈ p.name, IsName name) ∧ (p.optional = true → p.name.isSome = true)

/-- An arrow function or a function with a return type, whose text goes on with every member that
follows it. -/
def TakesMembers : TypeExpr → Prop
  | .function _ returns arrow => arrow = true ∨ returns.isSome = true
  | _ => False

/-- The notation tells a node from every other one. -/
def Printable : TypeExpr → Prop
  | .atom name => name = "?" ∨ (IsName name ∧ name ≠ "Promise")
  | .reference name => IsName name
  | .literal text => ∃ inner, '"' ∉ inner ∧ text = '"' :: inner ++ ['"']
  | .function params returns arrow =>
    ParamsPrintable params ∧ (arrow = true → returns.isSome = true)
  | .generic name args => IsName name ∧ args ≠ [] ∧ ¬ (name = "Promise" ∧ args.length = 1)
  | .object fields => ParamsPrintable fields ∧ ¬ ∃ type, fields = [⟨some "string", type, false⟩]
  | .union members =>
    2 ≤ members.length ∧ (∀ m ∈ members, m.isUnion = false) ∧
      ∀ m ∈ members.dropLast, ¬ m.TakesMembers
  | .raw _ => False
  | .array _ | .promise _ | .map .. => True

/-- The notation tells a node from every other one, but for how its choices are nested. -/
def Plain : TypeExpr → Prop
  | .union members => 2 ≤ members.length
  | t => Printable t

section

variable {t : TypeExpr}

lemma ParamsPrintable.namesLegible {ps : List TypeParam} (h : ParamsPrintable ps) :
    NamesLegible ps :=
  fun p hp => (h p hp).1

/-- A printable node is plain. -/
lemma Printable.plain (h : Printable t) : Plain t := by
  cases t with
  | union members => exact h.1
  | _ => exact h

/-- A plain expression is legible. -/
lemma Plain.legible (h : Everywhere Plain t) : Everywhere Legible t := by
  refine h.imp fun n hn => ?_
  cases n with
  | atom name => exact hn.imp_right And.left
  | reference name => exact hn
  | literal text => exact hn
  | function params returns arrow => exact hn.1.namesLegible
  | generic name args => exact ⟨hn.1, hn.2.1⟩
  | object fields => exact hn.1.namesLegible
  | union members => exact hn
  | raw text => exact hn
  | array element => trivial
  | promise result => trivial
  | map value indexed => trivial

/-- A printable expression is legible. -/
lemma Printable.legible (h : Everywhere Printable t) : Everywhere Legible t :=
  Plain.legible (h.imp fun _ hn => hn.plain)

/-! ### Reading them -/

/-- The members of a choice, or the expression itself. -/
def choices : TypeExpr → List TypeExpr
  | .union members => members
  | t => [t]

/-- An expression that is no choice is its own only member. -/
lemma choices_of_not_union (h : t.isUnion = false) : t.choices = [t] := by
  cases t <;> first | rfl | simp [isUnion] at h

/-- An expression reads as itself: alone, and in front of further members unless it takes them. -/
def ReadsAsItself (t : TypeExpr) : Prop :=
  rereadMembers t [] = t.choices ∧
    (t.isUnion = false → ¬ t.TakesMembers → ∀ more, rereadMembers t more = t :: more)

/-- A printable expression whose members read as themselves reads as itself. -/
lemma ReadsAsItself.reread_eq (h : ReadsAsItself t) (ht : Printable t) : t.reread = t := by
  rw [reread, h.1]
  cases t with
  | union members =>
    obtain ⟨hlen, -⟩ := ht
    obtain ⟨m, n, ms, rfl⟩ := exists_of_two_le_length hlen
    rfl
  | _ => rfl

/-- For a node that takes no members it is enough to read it alone. -/
lemma readsAsItself_of_alone (hcompound : t.isCompound = false) (h : t.reread = t) :
    ReadsAsItself t := by
  have hunion : t.isUnion = false := by
    cases t <;> first | rfl | simp [isCompound] at hcompound
  have hmembers := rereadMembers_of_not_compound hcompound
  rw [h] at hmembers
  exact ⟨by rw [hmembers, choices_of_not_union hunion], fun _ _ => hmembers⟩

/-- Parameters read as themselves if their types do. -/
lemma rereadParams_eq_self {ps : List TypeParam} (hps : ParamsPrintable ps)
    (h : ∀ p ∈ ps, p.type.reread = p.type) : rereadParams ps = ps := by
  rw [rereadParams_eq_map]
  conv_rhs => rw [← List.map_id ps]
  refine List.map_congr_left fun p hp => ?_
  obtain ⟨name, type, optional⟩ := p
  have htype : type.reread = type := h _ hp
  have hoptional : (name.isSome && optional) = optional := by
    have hname := (hps _ hp).2
    cases optional with
    | false => simp
    | true => simpa using hname rfl
  simp [htype, hoptional]

lemma rereadList_eq_self {ts : List TypeExpr} (h : ∀ t ∈ ts, t.reread = t) : rereadList ts = ts := by
  rw [rereadList_eq_map, List.map_congr_left h, List.map_id']

/-- The members of a printable choice read as themselves. -/
lemma rereadMembersOfList_eq_self {ms : List TypeExpr} (h : ∀ m ∈ ms, ReadsAsItself m)
    (hunion : ∀ m ∈ ms, m.isUnion = false) (htakes : ∀ m ∈ ms.dropLast, ¬ m.TakesMembers) :
    rereadMembersOfList ms [] = ms := by
  induction ms with
  | nil => rfl
  | cons m ms ih =>
    have hm := h m (List.mem_cons_self ..)
    have hmunion := hunion m (List.mem_cons_self ..)
    cases ms with
    | nil =>
      rw [rereadMembersOfList, rereadMembersOfList, hm.1, choices_of_not_union hmunion]
    | cons n ms =>
      rw [List.dropLast_cons_cons] at htakes
      have hrest := ih (fun k hk => h k (List.mem_cons_of_mem m hk))
        (fun k hk => hunion k (List.mem_cons_of_mem m hk))
        (fun k hk => htakes k (List.mem_cons_of_mem m hk))
      rw [rereadMembersOfList, hrest]
      exact hm.2 hmunion (htakes m (List.mem_cons_self ..)) _

/-- An expression with printable nodes throughout reads as itself. -/
lemma readsAsItself (h : Everywhere Printable t) : ReadsAsItself t := by
  induction t with
  | atom name =>
    refine readsAsItself_of_alone rfl ?_
    have hname : name ≠ "Promise" := by
      rcases (everywhere_atom name).mp h with rfl | hn
      · decide
      · exact hn.2
    simp only [reread, rereadMembers, ofMembers, ofName, if_neg hname]
  | reference name => exact readsAsItself_of_alone rfl rfl
  | literal text => exact readsAsItself_of_alone rfl rfl
  | raw text => exact absurd ((everywhere_raw text).mp h) id
  | array element ih =>
    obtain ⟨-, he⟩ := (everywhere_array element).mp h
    exact readsAsItself_of_alone rfl (congrArg TypeExpr.array ((ih he).reread_eq he.self))
  | map value indexed ih =>
    obtain ⟨-, hv⟩ := (everywhere_map value indexed).mp h
    exact readsAsItself_of_alone rfl
      (congrArg (TypeExpr.map · indexed) ((ih hv).reread_eq hv.self))
  | function params returns arrow ihp ihr =>
    obtain ⟨⟨hnames, harrow⟩, hp, hr⟩ := (everywhere_function ..).mp h
    have hparams := rereadParams_eq_self hnames fun p hm =>
      (ihp p hm (hp p hm)).reread_eq (hp p hm).self
    cases returns with
    | none =>
      cases arrow with
      | true => exact absurd (harrow rfl) (by simp)
      | false =>
        have hmembers : ∀ more, rereadMembers (.function params none false) more =
            .function params none false :: more := by
          intro more
          simp [rereadMembers, rereadMembersOfOption, hparams]
        exact ⟨hmembers [], fun _ _ => hmembers⟩
    -- a function with a return type takes the members behind it, so it is read alone only
    | some r =>
      have hreturns : ofMembers (rereadMembers r []) = r :=
        (ihr r rfl (hr r rfl)).reread_eq (hr r rfl).self
      refine ⟨?_, fun _ htakes => absurd (Or.inr rfl) htakes⟩
      simp [rereadMembers, rereadMembersOfOption, hparams, hreturns, choices]
  | promise result ih =>
    obtain ⟨-, hr⟩ := (everywhere_promise result).mp h
    refine readsAsItself_of_alone rfl ?_
    cases result with
    | none => rfl
    | some r =>
      have hresult : ofMembers (rereadMembers r []) = r :=
        (ih r rfl (hr r rfl)).reread_eq (hr r rfl).self
      exact congrArg (fun e => TypeExpr.promise (some e)) hresult
  | generic name args ih =>
    obtain ⟨⟨-, -, hpromise⟩, ha⟩ := (everywhere_generic name args).mp h
    have hargs := rereadList_eq_self fun a hm => (ih a hm (ha a hm)).reread_eq (ha a hm).self
    refine readsAsItself_of_alone rfl ?_
    simp only [reread, rereadMembers, ofMembers, hargs]
    rcases ofArguments_cases name args with ⟨result, hname, rfl, -⟩ | ⟨-, heq⟩
    · exact absurd ⟨hname, rfl⟩ hpromise
    · exact heq
  | object fields ih =>
    obtain ⟨⟨hnames, hstring⟩, hp⟩ := (everywhere_object fields).mp h
    have hfields := rereadParams_eq_self hnames fun p hm =>
      (ih p hm (hp p hm)).reread_eq (hp p hm).self
    refine readsAsItself_of_alone rfl ?_
    simp only [reread, rereadMembers, ofMembers, hfields]
    rcases ofFields_cases fields with ⟨type, hfield, -⟩ | ⟨-, heq⟩
    · exact absurd ⟨type, hfield⟩ hstring
    · exact heq
  | union members ih =>
    obtain ⟨⟨-, hunion, htakes⟩, hm⟩ := (everywhere_union members).mp h
    refine ⟨?_, fun hno => absurd hno (by simp [isUnion])⟩
    exact rereadMembersOfList_eq_self (fun m hmem => ih m hmem (hm m hmem)) hunion htakes

/-- A printable expression is what its text reads as. -/
lemma reread_eq_self (h : Everywhere Printable t) : t.reread = t :=
  (readsAsItself h).reread_eq h.self

/-- Reading the text of a printable expression gives the expression back. -/
lemma parseStrict_render_of_printable (h : Everywhere Printable t) :
    parseStrict t.render = .ok t := by
  rw [parseStrict_render (Printable.legible h), reread_eq_self h]

end

end TypeExpr

end Ambient
