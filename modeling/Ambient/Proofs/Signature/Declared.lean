import Mathlib
import Ambient.Proofs.TypeExpr.Printable
import Ambient.Signature.Rules

/-!
# Reading rendered declarations

A rendered signature is a declaration: the word `static` if the member is static, a name, and either a
colon with a type or a list of parameters with a return type.  The reader of declarations takes it
apart again.  `ofDeclaration?_colon` and `ofDeclaration?_parenthesis` find its head, for every name
that is an identifier, and `callOfText?_render` reads the rest of a call.
-/

namespace Ambient

namespace TypeExpr

/-! ### White space around a type -/

section

variable {c : Char} {w : Text}

/-- Texts with the same tokens are read alike if they are the same when trimmed. -/
lemma parse_eq_of_tokens {v : Text} (htokens : Token.tokens v = Token.tokens w)
    (htrim : v.trim = w.trim) : parse v = parse w := by
  rw [parse, parse, parseStrict, parseStrict, htokens, htrim]

/-- White space at the end of a type is not read. -/
lemma parse_trimEnd (w : Text) : parse w.trimEnd = parse w :=
  parse_eq_of_tokens (Token.tokens_trimEnd w) (Text.trim_trimEnd w)

lemma parse_cons_of_blank (h : isBlank c = true) : parse (c :: w) = parse w :=
  parse_eq_of_tokens (Token.tokens_cons_of_blank h) (Text.trim_cons_of_blank h)

/-- What the strict reader accepts is read as it says. -/
lemma parse_of_parseStrict {t : TypeExpr} (h : parseStrict w = .ok t) : parse w = t := by
  rw [parse, h]

end

end TypeExpr

namespace Signature

open Token (mark IsIdentifier Spells)

/-! ### Heads -/

/-- What stands in front of the name of a member. -/
def lead (isStatic : Bool) : Text :=
  if isStatic then "static " else ""

/-- The character of a separator. -/
def Separator.char : Separator → Char
  | .parenthesis => '('
  | .colon => ':'

section

variable {name : Text} (sep : Separator) (rest : Text)

lemma isNameRest_separator : isNameRest sep.char = false := by
  cases sep <;> decide

lemma separator?_char :
    separator? (Text.trimStart (sep.char :: rest)) = some (sep, rest) := by
  cases sep <;> rfl

lemma IsIdentifier.forall_isNameRest (h : IsIdentifier name) : ∀ c ∈ name, isNameRest c = true := by
  cases name with
  | nil => exact absurd h id
  | cons c cs =>
    exact List.forall_mem_cons.mpr ⟨isNameRest_of_isNameStart h.1, List.all_eq_true.mp h.2⟩

/-- An identifier starts with no white space. -/
lemma IsIdentifier.exists_cons (h : IsIdentifier name) :
    ∃ c cs, name = c :: cs ∧ isBlank c = false := by
  cases name with
  | nil => exact absurd h id
  | cons c cs =>
    refine ⟨c, cs, rfl, ?_⟩
    cases hc : isBlank c with
    | false => rfl
    | true =>
      have hrest := isNameRest_of_isNameStart h.1
      rw [isNameRest_of_isBlank hc] at hrest
      exact absurd hrest (by decide)

/-- An identifier is taken up to the separator behind it. -/
lemma takeWhile_identifier (h : ∀ c ∈ name, isNameRest c = true) :
    (name ++ sep.char :: rest).takeWhile isNameRest = name ∧
      (name ++ sep.char :: rest).dropWhile isNameRest = sep.char :: rest := by
  have hsep := isNameRest_separator sep
  rw [List.takeWhile_append_of_pos h, List.dropWhile_append_of_pos h]
  simp [hsep]

/-- An identifier in front of a separator is a head. -/
lemma nameHead?_identifier (h : IsIdentifier name) :
    nameHead? (name ++ sep.char :: rest) = some (name, sep, rest) := by
  have hall := IsIdentifier.forall_isNameRest h
  cases name with
  | nil => exact absurd h id
  | cons c cs =>
    obtain ⟨htake, hdrop⟩ :=
      takeWhile_identifier sep rest fun d hd => hall d (List.mem_cons_of_mem c hd)
    rw [List.cons_append, nameHead?, if_pos h.1, htake, hdrop, separator?_char]
    rfl

/-- A name in front of a separator is not the word `static` with white space behind it. -/
lemma afterStatic?_identifier (h : IsIdentifier name) :
    afterStatic? (name ++ sep.char :: rest) = none := by
  unfold afterStatic?
  split
  · next c ds hafter =>
    split
    · next hblank =>
      have heq := Text.after?_eq_some_iff.mp hafter
      obtain ⟨htake, hdrop⟩ := takeWhile_identifier sep rest (IsIdentifier.forall_isNameRest h)
      have hidentifier : IsIdentifier "static" := by decide
      have hstatic := IsIdentifier.forall_isNameRest hidentifier
      have hc := isNameRest_of_isBlank hblank
      rw [heq, List.dropWhile_append_of_pos hstatic,
        List.dropWhile_cons_of_neg (by simp [hc])] at hdrop
      obtain ⟨rfl, -⟩ := List.cons.inj hdrop
      cases sep <;> exact absurd hblank (by decide)
    · rfl
  · rfl

/-- What stands in front of a name says whether the member is static. -/
lemma declarationHead?_identifier (h : IsIdentifier name) (isStatic : Bool) :
    declarationHead? (lead isStatic ++ name ++ sep.char :: rest) =
      some (isStatic, name, sep, rest) := by
  have hhead := nameHead?_identifier sep rest h
  cases isStatic with
  | false =>
    have hno := afterStatic?_identifier sep rest h
    simp [lead, declarationHead?, hno, hhead]
  | true =>
    have hafter : afterStatic? (lead true ++ name ++ sep.char :: rest) =
        some (name ++ sep.char :: rest) := by
      have hstatic : Text.after? "static" (lead true ++ name ++ sep.char :: rest) =
          some (' ' :: (name ++ sep.char :: rest)) :=
        Text.after?_eq_some_iff.mpr (by simp [lead])
      have htrim : Text.trimStart (name ++ sep.char :: rest) = name ++ sep.char :: rest := by
        obtain ⟨c, cs, rfl, hc⟩ := IsIdentifier.exists_cons h
        rw [Text.trimStart, List.cons_append, List.dropWhile_cons_of_neg (by simp [hc])]
      have hblank : isBlank ' ' = true := by decide
      rw [afterStatic?, hstatic]
      simp [hblank, htrim]
    simp only [declarationHead?, hafter, Option.bind_some, hhead]

/-- White space at the end of a declaration belongs to what it declares. -/
lemma trim_declaration (h : IsIdentifier name) (isStatic : Bool) (hsep : isBlank sep.char = false) :
    Text.trim (lead isStatic ++ name ++ sep.char :: rest) =
      lead isStatic ++ name ++ sep.char :: rest.trimEnd := by
  have hfirst : ∃ c cs, lead isStatic ++ name = c :: cs ∧ isBlank c = false := by
    cases isStatic with
    | false => exact IsIdentifier.exists_cons h
    | true => exact ⟨'s', _, rfl, by decide⟩
  obtain ⟨c, cs, heq, hc⟩ := hfirst
  have htrim : Text.trim (lead isStatic ++ name ++ sep.char :: rest) =
      Text.trimEnd (lead isStatic ++ name ++ sep.char :: rest) := by
    rw [heq]
    exact Text.trim_cons_of_not_blank hc
  rw [htrim]
  exact Text.trimEnd_append_cons hsep

/-- The head of a declaration is found when white space is taken off. -/
lemma declarationHead?_trim (h : IsIdentifier name) (isStatic : Bool)
    (hsep : isBlank sep.char = false) :
    declarationHead? (Text.trim (lead isStatic ++ name ++ sep.char :: rest)) =
      some (isStatic, name, sep, rest.trimEnd) := by
  rw [trim_declaration sep rest h isStatic hsep]
  exact declarationHead?_identifier sep rest.trimEnd h isStatic

variable {rest}

/-- A name and a colon declare a property. -/
lemma ofDeclaration?_colon (h : IsIdentifier name) (hfn : name ≠ "fn") (isStatic : Bool) :
    ofDeclaration? (lead isStatic ++ name ++ ':' :: rest) =
      some { name, type := .parse rest, form := some .property, isStatic } := by
  have hhead : declarationHead? (Text.trim (lead isStatic ++ name ++ ':' :: rest)) =
      some (isStatic, name, .colon, rest.trimEnd) :=
    declarationHead?_trim .colon rest h isStatic (by decide)
  unfold ofDeclaration?
  rw [hhead]
  refine (if_neg hfn).trans ?_
  rw [TypeExpr.parse_trimEnd]

/-- A name and an opening parenthesis declare a call if the rest is one. -/
lemma ofDeclaration?_parenthesis (h : IsIdentifier name) (hfn : name ≠ "fn") (isStatic : Bool) :
    ofDeclaration? (lead isStatic ++ name ++ '(' :: rest) =
      (callOfText? rest).map fun call =>
        { name
          type := .function call.1 call.2 false
          form := some (if name = "constructor" then .constructor else .method)
          isStatic } := by
  have hhead : declarationHead? (Text.trim (lead isStatic ++ name ++ '(' :: rest)) =
      some (isStatic, name, .parenthesis, rest.trimEnd) :=
    declarationHead?_trim .parenthesis rest h isStatic (by decide)
  have hcall : callOfText? rest.trimEnd = callOfText? rest := by
    rw [callOfText?, callOfText?, Token.tokens_trimEnd]
  unfold ofDeclaration?
  rw [hhead]
  refine (if_neg hfn).trans ?_
  rw [hcall]

end

/-- What a text declares: a property with a type, or the call that its rest is. -/
lemma ofDeclaration?_spec {s : Signature} {w : Text} (h : ofDeclaration? w = some s) :
    ∃ name v isStatic, s = { name, type := .parse v, form := some .property, isStatic } ∨
      ∃ call, callOfText? v = some call ∧
        s = { name
              type := .function call.1 call.2 false
              form := some (if name = "constructor" then .constructor else .method)
              isStatic } := by
  unfold ofDeclaration? at h
  split at h
  · exact absurd h (Option.some_ne_none s).symm
  · next isStatic name sep v hhead =>
    by_cases hfn : name = "fn"
    · rw [if_pos hfn] at h
      exact absurd h (Option.some_ne_none s).symm
    · rw [if_neg hfn] at h
      refine ⟨name, v, isStatic, ?_⟩
      cases sep with
      | colon => exact Or.inl (Option.some.inj h).symm
      | parenthesis =>
        obtain ⟨call, hcall, heq⟩ := Option.map_eq_some_iff.mp h
        exact Or.inr ⟨call, hcall, heq.symm⟩

/-! ### Calls -/

section

variable {params : List TypeParam} {returns : Option TypeExpr} {ts us : List Token}

/-- Parameters up to the end are a call without a return type. -/
lemma callOfTokens?_open (h : TypeExpr.Reads (TypeExpr.parseParams ")" ts) params []) :
    callOfTokens? ts = some (params, none) := by
  obtain ⟨⟨rest, hlt⟩, hread, rfl⟩ := h
  simp only [callOfTokens?, hread, TypeExpr.after?]
  rfl

/-- Parameters with a colon and a type behind them are a call that returns this type. -/
lemma callOfTokens?_returning {colon : Token} {r : TypeExpr}
    (h : TypeExpr.Reads (TypeExpr.parseParams ")" ts) params (colon :: us))
    (hcolon : colon.text = ":") (hr : TypeExpr.Reads (TypeExpr.parseType us) r []) :
    callOfTokens? ts = some (params, some r) := by
  obtain ⟨⟨rest, hlt⟩, hread, rfl⟩ := h
  obtain ⟨⟨rest', hlt'⟩, hread', rfl⟩ := hr
  simp only [callOfTokens?, hread, TypeExpr.after?, if_pos hcolon, hread']
  rfl

/-- A call is its parameters, and behind them nothing or a colon and its return type. -/
lemma reads_of_callOfTokens? (h : callOfTokens? ts = some (params, returns)) :
    ∃ us, TypeExpr.Reads (TypeExpr.parseParams ")" ts) params us ∧
      ((us = [] ∧ returns = none) ∨ ∃ (colon : Token) (vs : List Token) (r : TypeExpr),
        us = colon :: vs ∧ TypeExpr.Reads (TypeExpr.parseType vs) r [] ∧ returns = some r) := by
  unfold callOfTokens? at h
  split at h
  · simp at h
  · next ps us hus hps =>
    split at h
    · split_ifs at h with hnil
      obtain ⟨rfl, rfl⟩ := Prod.mk.inj (Option.some.inj h)
      exact ⟨us, ⟨_, hps, rfl⟩, Or.inl ⟨by simpa using hnil, rfl⟩⟩
    · next vs hvs hcolon =>
      obtain ⟨colon, -, rfl⟩ := TypeExpr.after?_eq_some.mp hcolon
      split at h
      · simp at h
      · next r ws hws hr =>
        split_ifs at h with hnil
        obtain ⟨rfl, rfl⟩ := Prod.mk.inj (Option.some.inj h)
        obtain rfl : ws = [] := by simpa using hnil
        exact ⟨_, ⟨_, hps, rfl⟩, Or.inr ⟨colon, vs, r, rfl, ⟨_, hr, rfl⟩, rfl⟩⟩

/-- The text of a call behind its opening parenthesis. -/
def callText (params : List TypeParam) (returns : Option TypeExpr) : Text :=
  TypeExpr.paramListText params ++ ')' :: returnsText returns

/-- The text of a call reads as its parts do. -/
lemma callOfText?_render (hnames : TypeExpr.NamesLegible params)
    (hp : ∀ p ∈ params, TypeExpr.Everywhere TypeExpr.Legible p.type)
    (hr : ∀ r ∈ returns, TypeExpr.Everywhere TypeExpr.Legible r) :
    callOfText? (callText params returns) =
      some (TypeExpr.rereadParams params, returns.map TypeExpr.reread) := by
  have hinner := TypeExpr.writes_params hnames fun p hm => TypeExpr.writes_render (hp p hm)
  have hreads : ∀ us, TypeExpr.Reads (TypeExpr.parseParams ")"
      (Token.joinWith (mark ',') (TypeExpr.spellingOfParams params) ++ mark ')' :: us))
      (TypeExpr.rereadParams params) us :=
    fun us => TypeExpr.reads_parseParams_spelling hnames hp
      (fun p hm => TypeExpr.readsBack (hp p hm)) rfl (by decide) (by decide)
  have hspells : ∀ us v, Spells us v → Token.tokens
      (TypeExpr.paramListText params ++ ')' :: v) = .ok
        (Token.joinWith (mark ',') (TypeExpr.spellingOfParams params) ++ mark ')' :: us) :=
    fun us v h => Token.tokens_eq_ok_iff.mpr
      (hinner _ _ (Token.endsName_cons (by decide) (by decide)) (h.mark (by decide) (by decide)))
  cases returns with
  | none =>
    rw [callOfText?, callText, returnsText, hspells [] [] .nil]
    exact callOfTokens?_open (hreads [])
  | some r =>
    have hresult : Spells (mark ':' :: r.spelling) (returnsText (some r)) :=
      Spells.mark (by decide) (by decide)
        (.blank (c := ' ') (by decide) (TypeExpr.writes_render (hr r rfl)).spells)
    have htype := (TypeExpr.readsBack (hr r rfl)).reads_parseType TypeExpr.stops_nil
    rw [List.append_nil] at htype
    rw [callOfText?, callText, hspells _ _ hresult]
    exact callOfTokens?_returning (hreads _) rfl htype

end

/-! ### Rendered signatures -/

section

variable {s : Signature}

/-- A signature is written behind the lead of its member. -/
lemma render_eq_renderAfter : s.render = renderAfter (lead s.isStatic) s := rfl

/-- A property is written with a colon between its name and its type. -/
lemma render_property (h : s.form = some .property) :
    s.render = lead s.isStatic ++ s.name ++ ':' :: ' ' :: s.type.render := by
  simp [render_eq_renderAfter, renderAfter, h]

/-- A method is written as its name and a call. -/
lemma render_method {params : List TypeParam} {returns : Option TypeExpr} {arrow : Bool}
    (h : s.form = some .method) (ht : s.type = .function params returns arrow) :
    s.render = lead s.isStatic ++ s.name ++ '(' :: callText params returns := by
  simp [render_eq_renderAfter, renderAfter, h, ht, callText]

/-- A constructor is written as a call without a return type. -/
lemma render_constructor {params : List TypeParam} {returns : Option TypeExpr} {arrow : Bool}
    (h : s.form = some .constructor) (ht : s.type = .function params returns arrow) :
    s.render = lead false ++ "constructor" ++ '(' :: callText params none := by
  simp [render_eq_renderAfter, renderAfter, lead, h, ht, callText, returnsText]

/-! ### Declarations that read as themselves -/

/-- A signature whose text declares it: a property, or a method under another name than that of the
constructor whose type is a function in source notation. -/
def Declarable (s : Signature) : Prop :=
  IsIdentifier s.name ∧ s.name ≠ "fn" ∧ TypeExpr.Everywhere TypeExpr.Printable s.type ∧
    (s.form = some .property ∨ (s.form = some .method ∧ s.name ≠ "constructor" ∧
      ∃ params returns, s.type = .function params returns false))

/-- The text of a property declares a property of the type that is read of it. -/
lemma ofDeclaration?_render_property (hform : s.form = some .property)
    (hname : IsIdentifier s.name) (hfn : s.name ≠ "fn") :
    ofDeclaration? s.render = some
      { name := s.name, type := .parse s.type.render, form := some .property,
        isStatic := s.isStatic } := by
  rw [render_property hform, ofDeclaration?_colon hname hfn,
    TypeExpr.parse_cons_of_blank (by decide)]

/-- The text of a method declares a method with what its parts read as. -/
lemma ofDeclaration?_render_method {params : List TypeParam} {returns : Option TypeExpr}
    {arrow : Bool} (hform : s.form = some .method) (htype : s.type = .function params returns arrow)
    (hl : TypeExpr.Everywhere TypeExpr.Legible s.type) (hname : IsIdentifier s.name)
    (hfn : s.name ≠ "fn") (hconstructor : s.name ≠ "constructor") :
    ofDeclaration? s.render = some
      { name := s.name
        type := .function (TypeExpr.rereadParams params) (returns.map TypeExpr.reread) false
        form := some .method
        isStatic := s.isStatic } := by
  rw [htype] at hl
  obtain ⟨hnames, hp, hr⟩ := (TypeExpr.everywhere_function ..).mp hl
  rw [render_method hform htype, ofDeclaration?_parenthesis hname hfn,
    callOfText?_render hnames hp hr, Option.map_some, if_neg hconstructor]

/-- The text of a constructor declares it under that name, whatever it was named. -/
lemma ofDeclaration?_render_constructor {params : List TypeParam} {returns : Option TypeExpr}
    {arrow : Bool} (hform : s.form = some .constructor)
    (htype : s.type = .function params returns arrow)
    (hl : TypeExpr.Everywhere TypeExpr.Legible s.type) :
    ofDeclaration? s.render = some
      { name := "constructor"
        type := .function (TypeExpr.rereadParams params) none false
        form := some .constructor
        isStatic := false } := by
  rw [htype] at hl
  obtain ⟨hnames, hp, -⟩ := (TypeExpr.everywhere_function ..).mp hl
  have hname : IsIdentifier "constructor" := by decide
  rw [render_constructor hform htype, ofDeclaration?_parenthesis hname (by decide),
    callOfText?_render hnames hp (by simp), Option.map_some, if_pos rfl, Option.map_none]

/-- Reading undoes rendering: for printable expressions, and for the signatures that have one as
their type. -/
theorem read_render_of_printable :
    (∀ t, TypeExpr.Everywhere TypeExpr.Printable t → TypeExpr.parseStrict t.render = .ok t) ∧
      ∀ s : Signature, s.Declarable →
        ofDeclaration? s.render = some { s with inferredReturn := false } ∧
          ((Signature.saysReturn { s with inferredReturn := false } = true) ↔
            s.form = some .property ∨ ∃ params r arrow, s.type = .function params (some r) arrow) := by
  refine ⟨fun t => TypeExpr.parseStrict_render_of_printable, ?_⟩
  rintro ⟨name, type, form, isStatic, inferred⟩ ⟨hname, hfn, hprint, hform⟩
  simp only at hname hfn hprint hform
  rcases hform with rfl | ⟨rfl, hconstructor, params, returns, rfl⟩
  · refine ⟨?_, by simp [saysReturn]⟩
    rw [ofDeclaration?_render_property rfl hname hfn,
      TypeExpr.parse_of_parseStrict (TypeExpr.parseStrict_render_of_printable hprint)]
  · refine ⟨?_, ?_⟩
    · obtain ⟨hnode, hp, hr⟩ := (TypeExpr.everywhere_function ..).mp hprint
      have hparams := TypeExpr.rereadParams_eq_self hnode.1 fun p hm =>
        TypeExpr.reread_eq_self (hp p hm)
      have hreturns : returns.map TypeExpr.reread = returns := by
        cases returns with
        | none => rfl
        | some r => exact congrArg some (TypeExpr.reread_eq_self (hr r rfl))
      rw [ofDeclaration?_render_method rfl rfl (TypeExpr.Printable.legible hprint) hname hfn
        hconstructor, hparams, hreturns]
    · cases returns <;> simp [saysReturn]

/-- The text `static f(a?: (fn() | T)[]): Promise<T>` declares what it was rendered of, and its
parameter type reads as itself. -/
theorem read_render_static_method :
    let element : TypeExpr := .union [.function [] none false, .atom "T"]
    let s : Signature :=
      { name := "f"
        type := .function [⟨some "a", .array element, true⟩] (some (.promise (some (.atom "T")))) false
        form := some .method
        isStatic := true
        inferredReturn := true }
    TypeExpr.parseStrict (TypeExpr.array element).render = .ok (.array element) ∧
      ofDeclaration? s.render = some { s with inferredReturn := false } := by
  intro element s
  have hT : Token.IsName ['T'] := IsIdentifier.isName (by decide)
  have ha : Token.IsName ['a'] := IsIdentifier.isName (by decide)
  have helement : TypeExpr.Everywhere TypeExpr.Printable (.array element) := by
    simp [element, TypeExpr.Printable, TypeExpr.ParamsPrintable, TypeExpr.isUnion,
      TypeExpr.TakesMembers, hT]
  refine ⟨read_render_of_printable.1 _ helement, (read_render_of_printable.2 s ?_).1⟩
  refine ⟨by decide, by decide, ?_, Or.inr ⟨rfl, by decide, _, _, rfl⟩⟩
  simp [s, helement, TypeExpr.Printable, TypeExpr.ParamsPrintable, hT, ha]

end

end Signature

end Ambient
