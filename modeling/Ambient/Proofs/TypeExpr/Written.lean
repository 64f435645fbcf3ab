import Mathlib
import Ambient.Proofs.TypeExpr.Normalized
import Ambient.Proofs.TypeExpr.Rerendering
import Ambient.Proofs.TypeExpr.Shape

/-!
# Expressions as declarations write them

An expression that is read and then normalized is *written* if every name in it can be read again
(`written_normalized`).  What the text of a written expression reads as may differ from it, but the
rules have nothing left to do there either (`settled_reread`).
-/

namespace Ambient

namespace TypeExpr

open Token (IsName IsIdentifier)

/-! ### Written expressions -/

/-- A node whose text can be read again: no reference to `Promise`, which would lose its mark, no
quotation mark inside a literal, and no name of a parameter that is not a token. -/
def Reproducible : TypeExpr → Prop
  | .reference name => name ≠ "Promise"
  | .literal text => '"' ∉ (text.drop 1).dropLast
  | .function params _ _ => NamesLegible params
  | .object fields => NamesLegible fields
  | _ => True

/-- A node of a normalized expression whose text can be read again. -/
def Written : TypeExpr → Prop
  | .atom name => IsName name ∧ name ≠ "Promise" ∧ keyword name = name
  | .literal text => ∃ inner, '"' ∉ inner ∧ text = '"' :: inner ++ ['"']
  | .function params _ arrow =>
    NamesLegible params ∧ (∀ p ∈ params, p.name.isSome = true) ∧ arrow = true
  | .promise result => result.isSome = true
  | .generic name args => IsName name ∧ args ≠ []
  | .object fields => NamesLegible fields
  | .union members => 2 ≤ members.length
  | .reference _ | .raw _ => False
  | .array _ | .map .. => True

section

variable {t : TypeExpr} {fills : Bool}

/-- A normalized expression whose text can be read again is legible. -/
lemma Written.legible (h : Everywhere Written t) : Everywhere Legible t := by
  refine h.imp fun n hn => ?_
  cases n with
  | atom name => exact Or.inr hn.1
  | literal text => exact hn
  | function params returns arrow => exact hn.1
  | generic name args => exact hn
  | object fields => exact hn
  | union members => exact hn
  | reference name => exact absurd hn id
  | raw text => exact absurd hn id
  | array element => trivial
  | promise result => trivial
  | map value indexed => trivial

/-! ### Normalizing -/

lemma isName_keyword {name : Text} (h : name = "?" ∨ IsName name) : IsName (keyword name) := by
  have hboolean : IsName "boolean" := IsIdentifier.isName (by decide)
  have hany : IsName "any" := IsIdentifier.isName (by decide)
  unfold keyword
  split_ifs with hbool hquestion
  · exact hboolean
  · exact hany
  · exact h.resolve_left hquestion

lemma keyword_ne_promise {name : Text} (h : name ≠ "Promise") : keyword name ≠ "Promise" := by
  unfold keyword
  split_ifs
  · decide
  · decide
  · exact h

/-- A name other than `Promise` is written as one that can be read again. -/
lemma written_keyword {name : Text} (hname : name = "?" ∨ IsName name) (hpromise : name ≠ "Promise") :
    Everywhere Written (.atom (keyword name)) :=
  (everywhere_atom _).mpr
    ⟨isName_keyword hname, keyword_ne_promise hpromise, keyword_keyword name⟩

/-- A generated name is an identifier. -/
lemma isName_generated (i : ℕ) : IsName ("arg" ++ Text.ofNat i) := by
  have hdigits : ∀ c ∈ Text.ofNat i, isNameRest c = true := fun c hc =>
    Token.isNameRest_of_isDigit (Nat.isDigit_of_mem_toDigits (by decide) (by decide) hc)
  have hrest : ∀ c ∈ 'r' :: 'g' :: Text.ofNat i, isNameRest c = true :=
    List.forall_mem_cons.mpr ⟨by decide, List.forall_mem_cons.mpr ⟨by decide, hdigits⟩⟩
  exact IsIdentifier.isName (s := 'a' :: 'r' :: 'g' :: Text.ofNat i)
    ⟨by decide, List.all_eq_true.mpr hrest⟩

/-- Named parameters all have names, and these are names that can be read. -/
lemma nameParams_spec {ps : List TypeParam} (hnames : NamesLegible ps) (i : ℕ) :
    NamesLegible (nameParams i ps) ∧ ∀ p ∈ nameParams i ps, p.name.isSome = true := by
  induction ps generalizing i with
  | nil => simp [nameParams, NamesLegible]
  | cons p ps ih =>
    obtain ⟨hrest, hsome⟩ := ih (fun q hq => hnames q (List.mem_cons_of_mem p hq)) (i + 1)
    refine ⟨List.forall_mem_cons.mpr ⟨fun name hname => ?_, hrest⟩,
      List.forall_mem_cons.mpr ⟨rfl, hsome⟩⟩
    cases hp : p.name with
    | none =>
      simp only [hp, Option.getD_none, Option.mem_some_iff] at hname
      obtain rfl := hname
      exact isName_generated i
    | some n =>
      simp only [hp, Option.getD_some, Option.mem_some_iff] at hname
      obtain rfl := hname
      exact hnames p (List.mem_cons_self ..) n hp

/-- Normalizing the types leaves the names of parameters. -/
lemma namesLegible_normalizedParams {ps : List TypeParam} (h : NamesLegible ps) :
    NamesLegible (normalizedParams fills ps) := by
  rw [normalizedParams_eq_map]
  intro p hp
  obtain ⟨q, hq, rfl⟩ := List.mem_map.mp hp
  exact h q hq

/-- A missing type that is filled in is written. -/
lemma written_void : Everywhere Written (.atom "void") :=
  written_keyword (Or.inr isName_void) (by decide)

lemma written_normalizedOption {returns : Option TypeExpr}
    (h : ∀ r ∈ returns, Everywhere Written (r.normalized fills)) :
    ∀ r ∈ normalizedOption fills returns, Everywhere Written r := by
  cases returns with
  | none => simp [normalizedOption]
  | some r => simpa [normalizedOption] using h r rfl

/-- What is read and has names that can be read again is written once it is normalized. -/
lemma written_normalized (hshaped : Everywhere Shaped t) (h : Everywhere Reproducible t) :
    Everywhere Written (t.normalized fills) := by
  induction t with
  | atom name =>
    rw [everywhere_atom] at hshaped
    refine written_keyword (hshaped.imp_right And.left) ?_
    rcases hshaped with rfl | hn
    · decide
    · exact hn.2
  | reference name =>
    exact written_keyword (Or.inr ((everywhere_reference name).mp hshaped))
      ((everywhere_reference name).mp h)
  | literal text =>
    obtain ⟨inner, rfl⟩ := (everywhere_literal text).mp hshaped
    have hinner := (everywhere_literal _).mp h
    exact (everywhere_literal _).mpr ⟨inner, by simpa [Reproducible] using hinner, rfl⟩
  | raw text => exact absurd ((everywhere_raw text).mp hshaped) id
  | array element ih =>
    exact (everywhere_array _).mpr
      ⟨trivial, ih ((everywhere_array _).mp hshaped).2 ((everywhere_array _).mp h).2⟩
  | map value indexed ih =>
    exact (everywhere_map ..).mpr
      ⟨trivial, ih ((everywhere_map ..).mp hshaped).2 ((everywhere_map ..).mp h).2⟩
  | function params returns arrow ihp ihr =>
    obtain ⟨-, hps, hrs⟩ := (everywhere_function ..).mp hshaped
    obtain ⟨hnames, hp, hr⟩ := (everywhere_function ..).mp h
    have hparams := mem_normalizedParams fun p hm => ihp p hm (hps p hm) (hp p hm)
    have hnames' : NamesLegible (normalizedParams fills params) :=
      namesLegible_normalizedParams hnames
    obtain ⟨hlegible, hsome⟩ := nameParams_spec hnames' 0
    have hresult := written_normalizedOption fun r hm => ihr r hm (hrs r hm) (hr r hm)
    refine (everywhere_function ..).mpr
      ⟨⟨hlegible, hsome, rfl⟩, mem_nameParams hparams 0, fun r hmem => ?_⟩
    cases hreturns : normalizedOption fills returns with
    | some r' => exact hresult r (by simpa [hreturns] using hmem)
    | none =>
      cases fills with
      | false => simp [hreturns] at hmem
      | true =>
        obtain rfl : .atom "void" = r := by simpa [hreturns] using hmem
        exact written_void
  | promise result ih =>
    obtain ⟨-, hrs⟩ := (everywhere_promise result).mp hshaped
    obtain ⟨-, hr⟩ := (everywhere_promise result).mp h
    have hresult := written_normalizedOption fun r hm => ih r hm (hrs r hm) (hr r hm)
    refine (everywhere_promise _).mpr ⟨rfl, fun r hmem => ?_⟩
    obtain rfl := Option.mem_some_iff.mp hmem
    cases hoption : normalizedOption fills result with
    | none => exact written_void
    | some r => exact hresult r hoption
  | generic name args ih =>
    obtain ⟨⟨hname, hne⟩, has⟩ := (everywhere_generic name args).mp hshaped
    obtain ⟨-, ha⟩ := (everywhere_generic name args).mp h
    rw [normalized, normalizedList_eq_map]
    refine (everywhere_generic ..).mpr ⟨⟨hname, by simpa using hne⟩, ?_⟩
    exact List.forall_mem_map.mpr fun a hm => ih a hm (has a hm) (ha a hm)
  | object fields ih =>
    obtain ⟨-, hps⟩ := (everywhere_object fields).mp hshaped
    obtain ⟨hnames, hp⟩ := (everywhere_object fields).mp h
    exact (everywhere_object _).mpr ⟨namesLegible_normalizedParams hnames,
      mem_normalizedParams fun p hm => ih p hm (hps p hm) (hp p hm)⟩
  | union members ih =>
    obtain ⟨hlen, hms⟩ := (everywhere_union members).mp hshaped
    obtain ⟨-, hm⟩ := (everywhere_union members).mp h
    rw [normalized, normalizedList_eq_map]
    refine (everywhere_union _).mpr ⟨by simpa [Written, Shaped] using hlen, ?_⟩
    exact List.forall_mem_map.mpr fun m hmem => ih m hmem (hms m hmem) (hm m hmem)

/-! ### Reading again -/

/-- Members that no rule changes make a choice that no rule changes. -/
lemma settled_ofMembers {ms : List TypeExpr} (h : ∀ m ∈ ms, Everywhere Settled m) :
    Everywhere Settled (ofMembers ms) := by
  unfold ofMembers
  split
  · exact h _ (List.mem_singleton_self _)
  · exact (everywhere_union _).mpr ⟨trivial, h⟩

/-- Arguments that no rule changes make a named type that no rule changes. -/
lemma settled_ofArguments {name : Text} {args : List TypeExpr}
    (h : ∀ a ∈ args, Everywhere Settled a) : Everywhere Settled (ofArguments name args) := by
  rcases ofArguments_cases name args with ⟨result, -, rfl, heq⟩ | ⟨-, heq⟩ <;> rw [heq]
  · exact (everywhere_promise _).mpr ⟨rfl, by simpa using h⟩
  · exact (everywhere_generic name args).mpr ⟨trivial, h⟩

/-- Fields that no rule changes make an object or a map that no rule changes. -/
lemma settled_ofFields {fields : List TypeParam} (h : ∀ p ∈ fields, Everywhere Settled p.type) :
    Everywhere Settled (ofFields fields) := by
  rcases ofFields_cases fields with ⟨type, rfl, heq⟩ | ⟨-, heq⟩ <;> rw [heq]
  · exact (everywhere_map ..).mpr ⟨trivial, by simpa using h⟩
  · exact (everywhere_object fields).mpr ⟨trivial, h⟩

/-- No member that is read of an expression is left for the rules, if none of those behind it is. -/
def RereadsSettled (t : TypeExpr) : Prop :=
  ∀ more, (∀ m ∈ more, Everywhere Settled m) → ∀ m ∈ rereadMembers t more, Everywhere Settled m

/-- What such an expression reads as is left alone by the rules. -/
lemma RereadsSettled.settled (h : RereadsSettled t) : Everywhere Settled t.reread :=
  settled_ofMembers (h [] (by simp))

/-- For a node that takes no members it is enough to read it alone. -/
lemma rereadsSettled_of_alone (ht : t.isCompound = false) (h : Everywhere Settled t.reread) :
    RereadsSettled t := by
  intro more hmore
  rw [rereadMembers_of_not_compound ht]
  exact List.forall_mem_cons.mpr ⟨h, hmore⟩

/-- The types of parameters stay settled when their text is read. -/
lemma settled_rereadParams {ps : List TypeParam} (h : ∀ p ∈ ps, RereadsSettled p.type) :
    ∀ p ∈ rereadParams ps, Everywhere Settled p.type := by
  rw [rereadParams_eq_map]
  intro p hp
  obtain ⟨q, hq, rfl⟩ := List.mem_map.mp hp
  exact (h q hq).settled

/-- Parameters with names have them when their text is read. -/
lemma named_rereadParams {ps : List TypeParam} (h : ∀ p ∈ ps, p.name.isSome = true) :
    ∀ p ∈ rereadParams ps, p.name.isSome = true := by
  rw [rereadParams_eq_map]
  intro p hp
  obtain ⟨q, hq, rfl⟩ := List.mem_map.mp hp
  exact h q hq

/-- An arrow function with named parameters reads as one that no rule changes. -/
lemma rereadsSettled_function {params : List TypeParam} {returns : Option TypeExpr}
    (hsome : ∀ p ∈ params, p.name.isSome = true) (hp : ∀ p ∈ params, RereadsSettled p.type)
    (hr : ∀ r ∈ returns, RereadsSettled r) : RereadsSettled (.function params returns true) := by
  intro more hmore
  have hfunction : ∀ ms : List TypeExpr, (∀ m ∈ ms, Everywhere Settled m) →
      ∀ m ∈ [TypeExpr.function (rereadParams params) (some (ofMembers ms)) true],
        Everywhere Settled m := by
    intro ms hms m hm
    obtain rfl := List.mem_singleton.mp hm
    exact (everywhere_function ..).mpr ⟨⟨named_rereadParams hsome, rfl, rfl⟩,
      settled_rereadParams hp, by simpa using settled_ofMembers hms⟩
  have hvoid : Everywhere Settled (.atom "void") := (everywhere_atom _).mpr written_void.self.2.2
  cases returns with
  | none => exact hfunction _ (List.forall_mem_cons.mpr ⟨hvoid, hmore⟩)
  | some r => exact hfunction _ (hr r rfl more hmore)

/-- A choice reads as one that no rule changes if its members do. -/
lemma rereadsSettled_union {members : List TypeExpr} (h : ∀ m ∈ members, RereadsSettled m) :
    RereadsSettled (.union members) := by
  intro more hmore
  rw [rereadMembers]
  induction members with
  | nil => exact hmore
  | cons m ms ih =>
    exact h m (List.mem_cons_self ..) _ (ih fun k hk => h k (List.mem_cons_of_mem m hk))

/-- A written expression reads as one that no rule changes. -/
lemma rereadsSettled (h : Everywhere Written t) : RereadsSettled t := by
  induction t with
  | atom name =>
    obtain ⟨-, hpromise, hkeyword⟩ := (everywhere_atom name).mp h
    refine rereadsSettled_of_alone rfl ?_
    have hreread : reread (.atom name) = .atom name := by
      simp only [reread, rereadMembers, ofMembers, ofName, if_neg hpromise]
    rw [hreread]
    exact (everywhere_atom name).mpr hkeyword
  | reference name => exact absurd ((everywhere_reference name).mp h) id
  | literal text => exact rereadsSettled_of_alone rfl ((everywhere_literal text).mpr trivial)
  | raw text => exact absurd ((everywhere_raw text).mp h) id
  | array element ih =>
    obtain ⟨-, he⟩ := (everywhere_array element).mp h
    exact rereadsSettled_of_alone rfl ((everywhere_array _).mpr ⟨trivial, (ih he).settled⟩)
  | map value indexed ih =>
    obtain ⟨-, hv⟩ := (everywhere_map value indexed).mp h
    exact rereadsSettled_of_alone rfl ((everywhere_map ..).mpr ⟨trivial, (ih hv).settled⟩)
  | function params returns arrow ihp ihr =>
    obtain ⟨⟨-, hsome, rfl⟩, hp, hr⟩ := (everywhere_function ..).mp h
    exact rereadsSettled_function hsome (fun p hm => ihp p hm (hp p hm)) fun r hm =>
      ihr r hm (hr r hm)
  | promise result ih =>
    obtain ⟨hresult, hr⟩ := (everywhere_promise result).mp h
    obtain ⟨r, rfl⟩ := Option.isSome_iff_exists.mp hresult
    refine rereadsSettled_of_alone rfl ((everywhere_promise _).mpr ⟨rfl, fun r' hmem => ?_⟩)
    obtain rfl : r.reread = r' := Option.mem_some_iff.mp hmem
    exact (ih r rfl (hr r rfl)).settled
  | generic name args ih =>
    obtain ⟨-, ha⟩ := (everywhere_generic name args).mp h
    refine rereadsSettled_of_alone rfl (settled_ofArguments ?_)
    rw [rereadList_eq_map]
    exact List.forall_mem_map.mpr fun a hm => (ih a hm (ha a hm)).settled
  | object fields ih =>
    obtain ⟨-, hp⟩ := (everywhere_object fields).mp h
    exact rereadsSettled_of_alone rfl
      (settled_ofFields (settled_rereadParams fun p hm => ih p hm (hp p hm)))
  | union members ih =>
    obtain ⟨-, hm⟩ := (everywhere_union members).mp h
    exact rereadsSettled_union fun m hmem => ih m hmem (hm m hmem)

/-- The rules have nothing left to do in what the text of a written expression reads as. -/
lemma settled_reread (h : Everywhere Written t) : Everywhere Settled t.reread :=
  (rereadsSettled h).settled

end

end TypeExpr

end Ambient
