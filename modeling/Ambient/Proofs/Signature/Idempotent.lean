import Mathlib
import Ambient.Proofs.Signature.Declared
import Ambient.Proofs.Signature.OnePass
import Ambient.Proofs.TypeExpr.Written

/-!
# Translation is idempotent

The text of a translated signature is a declaration, and translating it again gives the same text.
Three facts carry the proof.  A translated signature is `Finished`: its names can be read again and
nothing in it is left for the rules, except that its text may read as another tree
(`finished_onePass`).  What the text reads as is settled, so the rules do not change it
(`onePass_property`, `onePass_call`).  And it renders to the text it was read of.
-/

namespace Ambient

open Token (IsIdentifier)
open TypeExpr (Everywhere Shaped Reproducible Written Settled NamesLegible nameParams
  normalizedParams normalizedOption)

/-! ### What sources hold -/

namespace TypeExpr

variable {w : Text}

/-- A text writes a shaped expression, or it is no expression and reads as the same raw text again. -/
lemma parse_spec (w : Text) :
    Everywhere Shaped (parse w) ∨ ∃ x, parse w = .raw x ∧ parse x = .raw x := by
  cases h : parseStrict w with
  | ok t =>
    rw [parse_of_parseStrict h]
    exact Or.inl (shaped_of_parseStrict h)
  | error fault =>
    have hraw : parse w = .raw w.trim := by rw [parse, h]
    refine Or.inr ⟨w.trim, hraw, ?_⟩
    rw [← hraw]
    exact parse_eq_of_tokens (Token.tokens_trim w) (Text.trim_trim w)

end TypeExpr

namespace Signature

/-- The signature of a source before any rule. -/
structure Sourced (c : Circumstances) (s : Signature) : Prop where
  name : s.name = c.name
  isStatic : c.isStatic = true → s.isStatic = true
  fresh : s.inferredReturn = false
  type : Everywhere Shaped s.type ∨ ∃ x, s.type = .raw x ∧ TypeExpr.parse x = .raw x
  call : s.form = none ∨ s.form = some .property ∨ s.type.isFunction = true

/-- A call that is read of a text is made of nodes that the reader makes. -/
lemma shaped_callOfText? {w : Text} {call : List TypeParam × Option TypeExpr}
    (h : callOfText? w = some call) : Everywhere Shaped (.function call.1 call.2 false) := by
  unfold callOfText? at h
  split at h
  · simp at h
  · next ts hts =>
    have hlex : TypeExpr.AllLexical ts := (Token.tokens_eq_ok_iff.mp hts).lexical
    obtain ⟨us, hps, hreturn⟩ := reads_of_callOfTokens? h
    obtain ⟨hparams, hus⟩ := TypeExpr.shaped_of_reads_parseParams hlex hps
    refine (TypeExpr.everywhere_function ..).mpr ⟨trivial, hparams, fun r hr => ?_⟩
    rcases hreturn with ⟨-, hnone⟩ | ⟨colon, vs, r', rfl, hread, hsome⟩
    · simp [hnone] at hr
    · obtain rfl : r' = r := by simpa [hsome] using hr
      exact (TypeExpr.shaped_of_reads_parseType (TypeExpr.allLexical_cons.mp hus).2 hread).1

/-- Every source is read as a signature before any rule. -/
lemma sourced_ofSource (c : Circumstances) (source : Text) : Sourced c (ofSource c source) := by
  have hor : ∀ b : Bool, c.isStatic = true → (b || c.isStatic) = true := by
    intro b hc
    rw [hc, Bool.or_true]
  cases h : ofDeclaration? source with
  | none =>
    have hsource : ofSource c source =
        { name := c.name, type := .parse source, isStatic := c.isStatic } := by
      rw [ofSource, h]
    rw [hsource]
    exact ⟨rfl, fun hc => hc, rfl, TypeExpr.parse_spec source, Or.inl rfl⟩
  | some s =>
    have hsource : ofSource c source =
        { s with name := c.name, isStatic := s.isStatic || c.isStatic } := by
      rw [ofSource, h]
    rw [hsource]
    obtain ⟨name, v, isStatic, rfl | ⟨call, hcall, rfl⟩⟩ := ofDeclaration?_spec h
    · exact ⟨rfl, hor isStatic, rfl, TypeExpr.parse_spec v, Or.inr (Or.inl rfl)⟩
    · exact ⟨rfl, hor isStatic, rfl, Or.inl (shaped_callOfText? hcall), Or.inr (Or.inr rfl)⟩

/-! ### What the rules leave -/

/-- The parts of a call are written, and its parameters have names. -/
structure WrittenCall (params : List TypeParam) (returns : Option TypeExpr) : Prop where
  legible : NamesLegible params
  named : ∀ p ∈ params, p.name.isSome = true
  types : ∀ p ∈ params, Everywhere Written p.type
  result : ∀ r ∈ returns, Everywhere Written r

/-- A signature after the rules. -/
inductive Finished (c : Circumstances) : Signature → Prop
  | property {type : TypeExpr} {isStatic inferred : Bool}
      (hstatic : c.isStatic = true → isStatic = true)
      (h : Everywhere Written type ∨ ∃ x, type = .raw x ∧ TypeExpr.parse x = .raw x) :
      Finished c ⟨c.name, type, some .property, isStatic, inferred⟩
  | method {params : List TypeParam} {returns : Option TypeExpr} {arrow isStatic inferred : Bool}
      (hstatic : c.isStatic = true → isStatic = true) (h : WrittenCall params returns)
      (hopen : returns = none → c.leavesReturnOpen = true) :
      Finished c ⟨c.name, .function params returns arrow, some .method, isStatic, inferred⟩
  | constructor {params : List TypeParam} {arrow isStatic inferred : Bool}
      (h : WrittenCall params none) :
      Finished c ⟨c.name, .function params none arrow, some .constructor, isStatic, inferred⟩

section

variable {c : Circumstances} {params : List TypeParam} {returns : Option TypeExpr}
  {arrow isStatic inferred : Bool}

/-- The parts of a call are written once they are normalized. -/
lemma writtenCall_normalized (hshaped : Everywhere Shaped (.function params returns arrow))
    (h : Everywhere Reproducible (.function params returns arrow)) :
    WrittenCall (nameParams 0 (normalizedParams true params)) (normalizedOption false returns) := by
  obtain ⟨-, hps, hrs⟩ := (TypeExpr.everywhere_function ..).mp hshaped
  obtain ⟨hnames, hp, hr⟩ := (TypeExpr.everywhere_function ..).mp h
  have hnames' : NamesLegible (normalizedParams true params) :=
    TypeExpr.namesLegible_normalizedParams hnames
  obtain ⟨hlegible, hnamed⟩ := TypeExpr.nameParams_spec hnames' 0
  have hparams : ∀ p ∈ normalizedParams true params, Everywhere Written p.type :=
    TypeExpr.mem_normalizedParams fun p hm => TypeExpr.written_normalized (hps p hm) (hp p hm)
  have hreturns : ∀ r ∈ normalizedOption false returns, Everywhere Written r :=
    TypeExpr.written_normalizedOption fun r hm => TypeExpr.written_normalized (hrs r hm) (hr r hm)
  exact ⟨hlegible, hnamed, TypeExpr.mem_nameParams hparams 0, hreturns⟩

/-- Another written return type leaves the call written. -/
lemma WrittenCall.with_returns {r : TypeExpr} (h : WrittenCall params returns)
    (hr : Everywhere Written r) : WrittenCall params (some r) :=
  ⟨h.legible, h.named, h.types, by simpa using hr⟩

lemma WrittenCall.without_returns (h : WrittenCall params returns) : WrittenCall params none :=
  ⟨h.legible, h.named, h.types, by simp⟩

/-- A method returns something unless its return type is left open. -/
lemma finished_method {declared : Option SignatureForm}
    (hdeclared : declared = none ∨ declared = some .method)
    (hstatic : c.isStatic = true → isStatic = true)
    (h : WrittenCall params (normalizedOption false returns)) :
    Finished c ⟨c.name, .function params (callReturn c .method inferred
      (if c.fillsReturn declared returns then some (.atom "void")
        else normalizedOption false returns)) arrow, some .method, isStatic, inferred⟩ := by
  have htext : Everywhere Written (.atom "string") :=
    TypeExpr.written_keyword (Or.inr TypeExpr.isName_string) (by decide)
  rw [callReturn, Circumstances.methodReturn]
  split_ifs with hinferred hfills
  · exact .method hstatic (h.with_returns htext) (by simp)
  · exact .method hstatic (h.with_returns TypeExpr.written_void) (by simp)
  · refine .method hstatic h fun hnone => ?_
    have hmissing : returns = none := by
      cases returns with
      | none => rfl
      | some r => simp [normalizedOption] at hnone
    rcases hdeclared with rfl | rfl <;>
      simpa [Circumstances.fillsReturn, hmissing] using hfills

/-- The rules finish every signature that is read of a source. -/
lemma finished_onePass {s : Signature} (hs : Sourced c s) (h : Everywhere Reproducible s.type) :
    Finished c (onePass c s) := by
  obtain ⟨hname, hstatic, hfresh, htype, hcall⟩ := hs
  obtain ⟨name, type, form, isStatic, inferred⟩ := s
  simp only at hname hstatic hfresh htype hcall h
  subst hname hfresh
  -- what is no function is a property: a written type, or a text that stays as it is
  have hproperty : type.isFunction = false →
      Finished c ⟨c.name, type.normalized false, some .property, isStatic, false⟩ := by
    intro hnot
    refine .property hstatic ?_
    rcases htype with hshaped | ⟨x, rfl, hx⟩
    · exact Or.inl (TypeExpr.written_normalized hshaped h)
    · exact Or.inr ⟨x, rfl, hx⟩
  cases type with
  | function params returns arrow =>
    have hshaped : Everywhere Shaped (.function params returns arrow) := by
      rcases htype with hshaped | ⟨x, hx, -⟩
      · exact hshaped
      · exact absurd hx TypeExpr.noConfusion
    have hwritten := writtenCall_normalized hshaped h
    cases form with
    | none =>
      cases hform : callForm c none returns (false || c.fillsReturn none returns) with
      | constructor =>
        simp only [onePass, hform]
        exact .constructor hwritten.without_returns
      | method =>
        simp only [onePass, hform]
        refine finished_method (Or.inl rfl) (fun hc => ?_) hwritten
        simp [callStatic, hc]
      | property =>
        rw [callForm, Option.getD_none] at hform
        split_ifs at hform
    | some form =>
      cases form with
      | property =>
        have hfills : c.fillsReturn (some .property) returns = false := by
          simp [Circumstances.fillsReturn]
        have hone : onePass c ⟨c.name, .function params returns arrow, some .property, isStatic,
            false⟩ = ⟨c.name, .function (nameParams 0 (normalizedParams true params))
              (normalizedOption false returns) true, some .property, isStatic, false⟩ := by
          simp [onePass, hfills, callForm, callStatic, callReturn]
        rw [hone]
        refine .property hstatic (Or.inl ((TypeExpr.everywhere_function ..).mpr ?_))
        exact ⟨⟨hwritten.legible, hwritten.named, rfl⟩, hwritten.types, hwritten.result⟩
      | method => exact finished_method (Or.inr rfl) hstatic hwritten
      | constructor => exact .constructor hwritten.without_returns
  | _ =>
    rcases hcall with rfl | rfl | hcall
    · exact hproperty rfl
    · exact hproperty rfl
    · exact absurd hcall Bool.false_ne_true

end

/-! ### Reading a finished signature -/

/-- The second circumstances read what the first ones translated: they name the same member and leave
its return type to the same rule, and they make nothing static. -/
structure Rereads (c c' : Circumstances) : Prop where
  name : c'.name = c.name
  leavesReturnOpen : c'.leavesReturnOpen = c.leavesReturnOpen
  isStatic : c'.isStatic = true → c.isStatic = true

section

variable {c c' : Circumstances} {params : List TypeParam} {returns : Option TypeExpr} {name : Text}
  {isStatic : Bool} {type : TypeExpr}

/-- The rules leave a declared function as it is if they have nothing to do in its parts. -/
lemma onePass_call {form : SignatureForm} (hnamed : ∀ p ∈ params, p.name.isSome = true)
    (hp : ∀ p ∈ params, Everywhere Settled p.type) (hr : ∀ r ∈ returns, Everywhere Settled r)
    (hmethod : form = .method → returns = none → c.leavesReturnOpen = true)
    (hconstructor : form = .constructor → returns = none) :
    onePass c ⟨name, .function params returns (form = .property), some form, isStatic, false⟩ =
      ⟨name, .function params returns (form = .property), some form, isStatic, false⟩ := by
  have hparams : normalizedParams true params = params :=
    TypeExpr.normalizedParams_eq_self fun p hm => TypeExpr.normalized_eq_self (hp p hm)
  have hresult : normalizedOption false returns = returns :=
    TypeExpr.normalizedOption_eq_self fun r hm => TypeExpr.normalized_eq_self (hr r hm)
  have hfills : c.fillsReturn (some form) returns = false := by
    cases returns with
    | some r => rfl
    | none =>
      by_cases hform : form = .method
      · simp [Circumstances.fillsReturn, hmethod hform rfl]
      · simp [Circumstances.fillsReturn, hform]
  have hreturn : callReturn c form false returns = returns := by
    cases form with
    | constructor => exact (hconstructor rfl).symm
    | _ => rfl
  have hnames : nameParams 0 (normalizedParams true params) = params := by
    rw [hparams, TypeExpr.nameParams_eq_self hnamed]
  exact onePass_eq_self hnames hresult hfills hreturn decide_eq_true

/-- The rules leave a property of a settled type as it is. -/
lemma onePass_property (h : Everywhere Settled type) :
    onePass c ⟨name, type, some .property, isStatic, false⟩ =
      ⟨name, type, some .property, isStatic, false⟩ := by
  have htype : type.normalized false = type := TypeExpr.normalized_eq_self h
  cases type with
  | function params returns arrow =>
    obtain ⟨⟨hnamed, -, rfl⟩, hp, hr⟩ := (TypeExpr.everywhere_function ..).mp h
    have hmethod : SignatureForm.property = .method → returns = none → c.leavesReturnOpen = true :=
      fun hform => SignatureForm.noConfusion hform
    exact onePass_call hnamed hp hr hmethod fun hform => SignatureForm.noConfusion hform
  | _ => simp only [onePass, htype, Option.getD_some]

/-- What the parts of a written call read as. -/
structure RereadCall (params : List TypeParam) (returns : Option TypeExpr) : Prop where
  named : ∀ p ∈ TypeExpr.rereadParams params, p.name.isSome = true
  types : ∀ p ∈ TypeExpr.rereadParams params, Everywhere Settled p.type
  result : ∀ r ∈ returns.map TypeExpr.reread, Everywhere Settled r
  text : callText (TypeExpr.rereadParams params) (returns.map TypeExpr.reread) =
    callText params returns

/-- A function of written parts is legible. -/
lemma WrittenCall.legible_function (h : WrittenCall params returns) (arrow : Bool) :
    Everywhere TypeExpr.Legible (.function params returns arrow) :=
  (TypeExpr.everywhere_function ..).mpr ⟨h.legible, fun p hm => Written.legible (h.types p hm),
    fun r hm => Written.legible (h.result r hm)⟩

/-- The parts of a written call read as a call that no rule changes, with the same text. -/
lemma WrittenCall.reread (h : WrittenCall params returns) : RereadCall params returns := by
  obtain ⟨-, hnamed, hp, hr⟩ := h
  refine ⟨TypeExpr.named_rereadParams hnamed,
    TypeExpr.settled_rereadParams fun p hm => TypeExpr.rereadsSettled (hp p hm), ?_, ?_⟩
  · intro r hmem
    obtain ⟨r', hr', rfl⟩ := Option.mem_map.mp hmem
    exact TypeExpr.settled_reread (hr r' hr')
  · have hparams : TypeExpr.renderParams (TypeExpr.rereadParams params) =
        TypeExpr.renderParams params :=
      TypeExpr.renderParams_reread fun p hm => TypeExpr.rerenders (Written.legible (hp p hm))
    have hreturns : returnsText (returns.map TypeExpr.reread) = returnsText returns := by
      cases returns with
      | none => rfl
      | some r =>
        rw [Option.map_some, returnsText, returnsText,
          TypeExpr.render_reread (Written.legible (hr r rfl))]
    rw [callText, callText, TypeExpr.paramListText, TypeExpr.paramListText, hparams, hreturns]

/-- A type that is written or raw reads as one that is settled and has the same text. -/
lemma parse_render (h : Everywhere Written type ∨ ∃ x, type = .raw x ∧ TypeExpr.parse x = .raw x) :
    Everywhere Settled (TypeExpr.parse type.render) ∧
      (TypeExpr.parse type.render).render = type.render := by
  rcases h with h | ⟨x, rfl, hx⟩
  · have hlegible := Written.legible h
    rw [TypeExpr.parse_of_parseStrict (TypeExpr.parseStrict_render hlegible)]
    exact ⟨TypeExpr.settled_reread h, TypeExpr.render_reread hlegible⟩
  · have hraw : TypeExpr.parse (TypeExpr.raw x).render = .raw x := hx
    rw [hraw]
    exact ⟨(TypeExpr.everywhere_raw x).mpr trivial, rfl⟩

/-- The signature of a declaration has the name of its member. -/
lemma ofSource_of_declaration {source : Text} {s : Signature}
    (h : ofDeclaration? source = some s) :
    ofSource c source = { s with name := c.name, isStatic := s.isStatic || c.isStatic } := by
  rw [ofSource, h]

/-- What is static stays so, and nothing else becomes static. -/
lemma Rereads.isStatic_or (h : Rereads c c') (hstatic : c.isStatic = true → isStatic = true) :
    (isStatic || c'.isStatic) = isStatic := by
  cases hc : c'.isStatic with
  | false => exact Bool.or_false isStatic
  | true => rw [hstatic (h.isStatic hc), Bool.or_true]

/-- Translating the text of a finished signature gives the text back. -/
lemma Finished.translate_render {s : Signature} (hs : Finished c s) (h : Rereads c c')
    (hname : IsIdentifier c.name) (hfn : c.name ≠ "fn") (hconstructor : c.name ≠ "constructor") :
    (translate c' s.render).render = s.render := by
  rw [translate, applyAll_eq_onePass]
  cases hs with
  | @property type isStatic inferred hstatic htype =>
    obtain ⟨hsettled, htext⟩ := parse_render htype
    rw [ofSource_of_declaration (ofDeclaration?_render_property rfl hname hfn), h.name]
    rw [h.isStatic_or hstatic, onePass_property hsettled, render_property rfl, render_property rfl]
    rw [htext]
  | @method params returns arrow isStatic inferred hstatic hcall hopen =>
    obtain ⟨hnamed, hp, hr, htext⟩ := hcall.reread
    have hmissing : returns.map TypeExpr.reread = none → c'.leavesReturnOpen = true := fun hnone =>
      h.leavesReturnOpen.trans (hopen (Option.map_eq_none_iff.mp hnone))
    have hone : onePass c' ⟨c.name, .function (TypeExpr.rereadParams params)
        (returns.map TypeExpr.reread) false, some .method, isStatic, false⟩ =
          ⟨c.name, .function (TypeExpr.rereadParams params) (returns.map TypeExpr.reread) false,
            some .method, isStatic, false⟩ :=
      onePass_call hnamed hp hr (fun _ => hmissing) fun hform => SignatureForm.noConfusion hform
    have hdeclared := ofDeclaration?_render_method
      (s := ⟨c.name, .function params returns arrow, some .method, isStatic, inferred⟩) rfl rfl
      (hcall.legible_function arrow) hname hfn hconstructor
    rw [ofSource_of_declaration hdeclared, h.name, h.isStatic_or hstatic, hone,
      render_method rfl rfl, render_method rfl rfl, htext]
  | @constructor params arrow isStatic inferred hcall =>
    obtain ⟨hnamed, hp, hr, htext⟩ := hcall.reread
    have hone : onePass c' ⟨c.name, .function (TypeExpr.rereadParams params) none false,
        some .constructor, c'.isStatic, false⟩ =
          ⟨c.name, .function (TypeExpr.rereadParams params) none false, some .constructor,
            c'.isStatic, false⟩ :=
      onePass_call hnamed hp hr (fun hform => SignatureForm.noConfusion hform) fun _ => rfl
    have hdeclared := ofDeclaration?_render_constructor
      (s := ⟨c.name, .function params none arrow, some .constructor, isStatic, inferred⟩) rfl rfl
      (hcall.legible_function arrow)
    rw [Option.map_none] at htext
    rw [ofSource_of_declaration hdeclared, h.name, Bool.false_or, hone, render_constructor rfl rfl,
      render_constructor rfl rfl, htext]

end

/-! ### Idempotence -/

/-- Translating the text of a translated signature gives the text back, under the circumstances it
was translated under and under those that neither make a member static nor a constructor. -/
theorem translate_translate (c : Circumstances) {source : Text} (hname : IsIdentifier c.name)
    (hfn : c.name ≠ "fn") (hconstructor : c.name ≠ "constructor")
    (h : Everywhere Reproducible (ofSource c source).type) :
    let text := (translate c source).render
    (translate c text).render = text ∧
      (translate { c with isStatic := false, mayBeConstructor := false } text).render = text := by
  intro text
  have hfinished : Finished c (translate c source) := by
    rw [translate, applyAll_eq_onePass]
    exact finished_onePass (sourced_ofSource c source) h
  refine ⟨?_, ?_⟩
  · exact hfinished.translate_render ⟨rfl, rfl, id⟩ hname hfn hconstructor
  · have hrereads : Rereads c { c with isStatic := false, mayBeConstructor := false } :=
      ⟨rfl, rfl, fun hstatic => absurd hstatic Bool.false_ne_true⟩
    exact hfinished.translate_render hrereads hname hfn hconstructor

/-- The text `static handler: () => void | boolean` of a function or a truth value reads as a function
that returns one, and nevertheless comes back. -/
theorem translate_translate_union :
    let c : Circumstances := { name := "handler", isStatic := true }
    let source : TypeExpr := .union [.function [] none false, .atom "bool"]
    let text : Text := "static handler: () => void | boolean"
    (translate c source.render).render = text ∧ (translate c text).render = text ∧
      (translate { c with isStatic := false, mayBeConstructor := false } text).render = text := by
  intro c source text
  have hbool : Token.IsName ['b', 'o', 'o', 'l'] := IsIdentifier.isName (by decide)
  have hprintable : Everywhere TypeExpr.Printable source := by
    simp [source, TypeExpr.Printable, TypeExpr.ParamsPrintable, TypeExpr.isUnion,
      TypeExpr.TakesMembers, hbool]
  have hparse : TypeExpr.parse source.render = source :=
    TypeExpr.parse_of_parseStrict (TypeExpr.parseStrict_render_of_printable hprintable)
  have hnone : ofDeclaration? source.render = none := by rfl
  have hsource : ofSource c source.render =
      { name := c.name, type := source, isStatic := c.isStatic } := by
    rw [ofSource, hnone, hparse]
  have htext : (translate c source.render).render = text := by
    rw [translate, hsource]
    rfl
  have hreproducible : Everywhere Reproducible (ofSource c source.render).type := by
    rw [hsource]
    simp [source, Reproducible, NamesLegible]
  have h := translate_translate c (by decide) (by decide) (by decide) hreproducible
  simp only [htext] at h
  exact ⟨htext, h⟩

end Signature

end Ambient
