import Mathlib
import Ambient.Proofs.TypeExpr.RoundTrip

/-!
# The text of what a text reads as

Reading the text of an expression may give another expression, but it never gives another text: the
expression that is read renders to the text it was read of (`render_reread`).  For a choice this is a
statement about the members that follow: the texts of what is read of an expression and of `more`,
with bars between them, are the text of the expression and those of `more`.
-/

namespace Ambient

namespace Text

variable {separator t u : Text} {ts us : List Text}

lemma joinWith_append_cons : joinWith separator ((t ++ u) :: us) = t ++ joinWith separator (u :: us) := by
  cases us <;> simp [joinWith]

/-- A join in front of further texts is one join. -/
lemma joinWith_joinWith_cons (h : ts ≠ []) :
    joinWith separator (joinWith separator ts :: us) = joinWith separator (ts ++ us) := by
  induction ts with
  | nil => exact absurd rfl h
  | cons t ts ih =>
    cases ts with
    | nil => rfl
    | cons v ts =>
      rw [joinWith_cons_cons, joinWith_append_cons, ih (List.cons_ne_nil v ts)]
      rfl

/-- Joined texts with the same beginning agree if what follows agrees. -/
lemma joinWith_cons_congr (hne : ts ≠ []) (hne' : us ≠ [])
    (h : joinWith separator ts = joinWith separator us) :
    joinWith separator (t :: ts) = joinWith separator (t :: us) := by
  match ts, us, hne, hne' with
  | v :: ts, w :: us, _, _ => rw [joinWith_cons_cons, joinWith_cons_cons, h]

end Text

namespace TypeExpr

section

variable {t : TypeExpr} {ms more : List TypeExpr}

/-! ### Which expressions need parentheses -/

/-- Something is read of a legible expression, and a single member behind which others stand or that
is read of an expression in parentheses is a function. -/
lemma rereadMembers_spec (h : Everywhere Legible t) (more : List TypeExpr) :
    rereadMembers t more ≠ [] ∧ ∀ m, rereadMembers t more = [m] →
      t.isCompound = true ∨ more ≠ [] → m.isFunction = true := by
  have halone : ∀ (t : TypeExpr) (more : List TypeExpr), t.isCompound = false →
      rereadMembers t more ≠ [] ∧ ∀ m, rereadMembers t more = [m] →
        t.isCompound = true ∨ more ≠ [] → m.isFunction = true := by
    intro t more ht
    rw [rereadMembers_of_not_compound ht, ht]
    refine ⟨List.cons_ne_nil _ _, fun m hm hmore => ?_⟩
    obtain ⟨-, rfl⟩ := List.cons.inj hm
    exact absurd hmore (by simp)
  induction t generalizing more with
  | function params returns arrow ihp ihr =>
    cases returns <;> cases arrow <;>
      simp [rereadMembers, rereadMembersOfOption] <;> intros <;> subst_vars <;> rfl
  | union members ih =>
    obtain ⟨hlen, hm⟩ := (everywhere_union members).mp h
    obtain ⟨m, n, ms, rfl⟩ := exists_of_two_le_length hlen
    have hfirst := ih m (by simp) (hm m (by simp))
    have hsecond := ih n (by simp) (hm n (by simp))
    obtain ⟨hne, hsingle⟩ := hfirst (rereadMembersOfList (n :: ms) more)
    exact ⟨hne, fun k hk _ => hsingle k hk (Or.inr (hsecond _).1)⟩
  | _ => exact halone _ more rfl

/-- What is read needs parentheses exactly if what was rendered does. -/
lemma isCompound_reread (h : Everywhere Legible t) : t.reread.isCompound = t.isCompound := by
  obtain ⟨hne, hsingle⟩ := rereadMembers_spec h []
  cases ht : t.isCompound with
  | false =>
    cases t with
    | function => simp [isCompound] at ht
    | union => simp [isCompound] at ht
    | atom name =>
      simp only [reread, rereadMembers, ofMembers]
      rcases ofName_cases name with ⟨-, h⟩ | ⟨-, h⟩ <;> rw [h] <;> rfl
    | generic name args =>
      simp only [reread, rereadMembers, ofMembers]
      rcases ofArguments_cases name (rereadList args) with ⟨result, -, -, h⟩ | ⟨-, h⟩ <;>
        rw [h] <;> rfl
    | object fields =>
      simp only [reread, rereadMembers, ofMembers]
      rcases ofFields_cases (rereadParams fields) with ⟨type, -, h⟩ | ⟨-, h⟩ <;>
        rw [h] <;> rfl
    | _ => rfl
  | true =>
    rw [reread]
    cases hms : rereadMembers t [] with
    | nil => exact absurd hms hne
    | cons m ms =>
      cases ms with
      | nil =>
        have hm := hsingle m hms (Or.inl ht)
        cases m with
        | function => rfl
        | _ => simp [isFunction] at hm
      | cons n ms => rfl

/-! ### Texts -/

/-- Members are written with bars between them, a single one without. -/
lemma render_ofMembers (ms : List TypeExpr) :
    (ofMembers ms).render = Text.joinWith " | " (ms.map render) := by
  match ms with
  | [] => rfl
  | [m] => rfl
  | m :: n :: ms => rw [ofMembers, render, renderList_eq_map]; simp

/-- The texts of what is read of an expression and of the members behind it. -/
def Rerenders (t : TypeExpr) : Prop :=
  ∀ more, Text.joinWith " | " ((rereadMembers t more).map render) =
    Text.joinWith " | " (t.render :: more.map render)

/-- An expression is written as before when its text has been read. -/
lemma Rerenders.render_eq (h : Rerenders t) : t.reread.render = t.render := by
  rw [reread, render_ofMembers, h []]
  rfl

/-- For a node that takes no members it is enough to write it alone. -/
lemma rerenders_of_alone (ht : t.isCompound = false) (h : t.reread.render = t.render) :
    Rerenders t := by
  intro more
  rw [rereadMembers_of_not_compound ht, List.map_cons, h]

lemma renderParams_reread {ps : List TypeParam} (h : ∀ p ∈ ps, Rerenders p.type) :
    renderParams (rereadParams ps) = renderParams ps := by
  rw [renderParams_eq_map, renderParams_eq_map, rereadParams_eq_map, List.map_map]
  refine List.map_congr_left fun p hp => ?_
  obtain ⟨name, type, optional⟩ := p
  have htype : type.reread.render = type.render := (h _ hp).render_eq
  cases name <;> simp [htype, namedText]

lemma renderList_reread {ts : List TypeExpr} (h : ∀ t ∈ ts, Rerenders t) :
    renderList (rereadList ts) = renderList ts := by
  rw [renderList_eq_map, renderList_eq_map, rereadList_eq_map, List.map_map]
  exact List.map_congr_left fun t ht => (h t ht).render_eq

/-- A name is written as it stands, whatever it is read as. -/
lemma render_ofName (name : Text) : (ofName name).render = name := by
  rcases ofName_cases name with ⟨rfl, h⟩ | ⟨-, h⟩ <;> rw [h] <;> rfl

/-- A name with arguments is written alike as a generic type and as a promise. -/
lemma render_ofArguments (name : Text) (args : List TypeExpr) :
    (ofArguments name args).render = render (.generic name args) := by
  rcases ofArguments_cases name args with ⟨result, rfl, rfl, h⟩ | ⟨-, h⟩ <;> rw [h]
  simp [render, renderOption, renderList, Text.joinWith]

/-- Braces are written alike whether they are read as an object or as a map. -/
lemma render_ofFields (fields : List TypeParam) :
    (ofFields fields).render = render (.object fields) := by
  rcases ofFields_cases fields with ⟨type, rfl, h⟩ | ⟨-, h⟩ <;> rw [h]
  simp [render, renderParams, renderParam, namedText, Text.joinWith]

/-- The text of a function in front of its return type. -/
def functionHead (params : List TypeParam) (arrow : Bool) : Text :=
  if arrow then '(' :: Text.joinWith ", " (renderParams params) ++ ") => "
  else "fn(" ++ Text.joinWith ", " (renderParams params) ++ ") -> "

/-- The text of a function with a return type is its head and the text of that type. -/
lemma render_function_some (params : List TypeParam) (r : TypeExpr) (arrow : Bool) :
    render (.function params (some r) arrow) = functionHead params arrow ++ r.render := by
  cases arrow <;> simp [render, renderOption, functionHead]

/-- An arrow function without a return type is written as one that returns nothing. -/
lemma render_arrow_none (params : List TypeParam) :
    render (.function params none true) = render (.function params (some (.atom "void")) true) := by
  simp [render, renderOption]

/-- A function is written as before if its parameters and its return type are. -/
lemma rerenders_function {params : List TypeParam} {returns : Option TypeExpr}
    (hp : ∀ p ∈ params, Rerenders p.type) (hr : ∀ r ∈ returns, Rerenders r) (arrow : Bool) :
    Rerenders (.function params returns arrow) := by
  intro more
  have hhead : functionHead (rereadParams params) = functionHead params := by
    funext arrow
    rw [functionHead, functionHead, renderParams_reread hp]
  have hreturning : ∀ (r : TypeExpr) (ms : List TypeExpr) (arrow : Bool),
      Text.joinWith " | " (ms.map render) = Text.joinWith " | " (r.render :: more.map render) →
      render (.function (rereadParams params) (some (ofMembers ms)) arrow) =
        Text.joinWith " | " (render (.function params (some r) arrow) :: more.map render) := by
    intro r ms arrow hms
    rw [render_function_some, render_function_some, render_ofMembers, hms, hhead,
      Text.joinWith_append_cons]
  cases returns with
  | some r => exact hreturning r _ arrow (hr r rfl more)
  | none =>
    cases arrow with
    | true =>
      rw [render_arrow_none]
      exact hreturning (.atom "void") (.atom "void" :: more) true rfl
    | false =>
      have htext : render (.function (rereadParams params) none false) =
          render (.function params none false) := by
        rw [render, render, renderParams_reread hp]
      simp only [rereadMembers, rereadMembersOfOption, Bool.false_eq_true, if_false, List.map_cons,
        htext]

/-- A choice is written as before if each of its members is. -/
lemma rerenders_union {members : List TypeExpr} (hm : ∀ m ∈ members, Rerenders m)
    (hread : ∀ m ∈ members, ∀ more, rereadMembers m more ≠ []) (hne : members ≠ []) :
    Rerenders (.union members) := by
  intro more
  have hlist : Text.joinWith " | " ((rereadMembersOfList members more).map render) =
      Text.joinWith " | " (members.map render ++ more.map render) := by
    clear hne
    induction members with
    | nil => rfl
    | cons m ms ih =>
      have hrest := ih (fun k hk => hm k (List.mem_cons_of_mem m hk))
        (fun k hk => hread k (List.mem_cons_of_mem m hk))
      rw [rereadMembersOfList, hm m (List.mem_cons_self ..), List.map_cons, List.cons_append]
      cases ms with
      | nil => rfl
      | cons n ms =>
        have hne : rereadMembersOfList (n :: ms) more ≠ [] := hread n (by simp) _
        exact Text.joinWith_cons_congr (by simpa using hne) (by simp) hrest
  have htext : render (.union members) = Text.joinWith " | " (members.map render) := by
    rw [render, renderList_eq_map]
  rw [htext, Text.joinWith_joinWith_cons (by simpa using hne)]
  exact hlist

/-- The texts of what is read of a legible expression and of `more` are its text and theirs. -/
lemma rerenders (h : Everywhere Legible t) : Rerenders t := by
  induction t with
  | atom name => exact rerenders_of_alone rfl (render_ofName name)
  | reference name => exact rerenders_of_alone rfl rfl
  | literal text => exact rerenders_of_alone rfl rfl
  | raw text => exact rerenders_of_alone rfl rfl
  | array element ih =>
    obtain ⟨-, he⟩ := (everywhere_array element).mp h
    refine rerenders_of_alone rfl ?_
    have hreread : reread (.array element) = .array element.reread := rfl
    -- the same brackets are needed around what is read
    rw [hreread, render, render, (ih he).render_eq, isCompound_reread he]
  | map value indexed ih =>
    obtain ⟨-, hv⟩ := (everywhere_map value indexed).mp h
    refine rerenders_of_alone rfl ?_
    have hreread : reread (.map value indexed) = .map value.reread indexed := rfl
    rw [hreread, render, render, (ih hv).render_eq]
  | function params returns arrow ihp ihr =>
    obtain ⟨-, hp, hr⟩ := (everywhere_function ..).mp h
    exact rerenders_function (fun p hm => ihp p hm (hp p hm)) (fun r hm => ihr r hm (hr r hm)) arrow
  | promise result ih =>
    obtain ⟨-, hr⟩ := (everywhere_promise result).mp h
    refine rerenders_of_alone rfl ?_
    cases result with
    | none => rfl
    | some r =>
      have hreread : reread (.promise (some r)) = .promise (some r.reread) := rfl
      have hresult := (ih r rfl (hr r rfl)).render_eq
      simp only [hreread, render, renderOption, hresult]
  | generic name args ih =>
    obtain ⟨-, ha⟩ := (everywhere_generic name args).mp h
    refine rerenders_of_alone rfl ?_
    have hargs := renderList_reread fun a hm => ih a hm (ha a hm)
    have hreread : reread (.generic name args) = ofArguments name (rereadList args) := rfl
    rw [hreread, render_ofArguments, render, render, hargs]
  | object fields ih =>
    obtain ⟨-, hp⟩ := (everywhere_object fields).mp h
    refine rerenders_of_alone rfl ?_
    have hfields := renderParams_reread fun p hm => ih p hm (hp p hm)
    have hreread : reread (.object fields) = ofFields (rereadParams fields) := rfl
    rw [hreread, render_ofFields, render, render, hfields]
  | union members ih =>
    obtain ⟨hlen, hm⟩ := (everywhere_union members).mp h
    refine rerenders_union (fun m hmem => ih m hmem (hm m hmem))
      (fun m hmem more => (rereadMembers_spec (hm m hmem) more).1) ?_
    rintro rfl
    exact absurd hlen (by simp [Legible])

/-- What the text of a legible expression reads as has that text again. -/
theorem render_reread (h : Everywhere Legible t) : t.reread.render = t.render :=
  (rerenders h).render_eq

end

end TypeExpr

end Ambient
