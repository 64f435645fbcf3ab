import Mathlib
import Ambient.Proofs.TypeExpr.Printable
import Ambient.Proofs.TypeExpr.Rerendering
import Ambient.Proofs.TypeExpr.Shape

/-!
# Which expressions share a text

Two expressions that are read of texts without quotation marks have the same text if and only if the
same expression is read of it again.  The text says nothing of how a choice is nested in a choice:
`flattened` puts such members in one list.  For a choice whose functions with a return type stand
last, this is all that is lost (`Separate`).  The text of any other function goes on with the members
behind it, so that the text is also that of a function which returns them (`render_eq_iff`).
-/

namespace Ambient

namespace TypeExpr

open Token (mark word thinArrow IsName)

/-! ### Texts without quotation marks -/

/-- No quotation mark and no apostrophe stands in a text. -/
def Unquoted (w : Text) : Prop :=
  ∀ c ∈ w, c ≠ '"' ∧ c ≠ '\''

/-- A token that the scanner makes of a text without quotation marks. -/
def Unliteral (t : Token) : Prop :=
  t.Lexical ∧ t.kind ≠ .text

/-- A plain node that is no literal. -/
def Bare : TypeExpr → Prop
  | .literal _ => False
  | t => Plain t

instance (w : Text) : Decidable (Unquoted w) :=
  inferInstanceAs (Decidable (∀ c ∈ w, c ≠ '"' ∧ c ≠ '\''))

section

variable {t u e : TypeExpr} {v w : Text} {ts : List Token}

lemma unquoted_cons {c : Char} : Unquoted (c :: w) ↔ (c ≠ '"' ∧ c ≠ '\'') ∧ Unquoted w :=
  List.forall_mem_cons

/-- Two texts have no quotation marks together if neither has. -/
lemma unquoted_append : Unquoted (v ++ w) ↔ Unquoted v ∧ Unquoted w :=
  List.forall_mem_append

/-- A text without quotation marks has no quoted text among its tokens. -/
lemma unliteral_of_spells (h : Token.Spells ts w) (hw : Unquoted w) : ∀ t ∈ ts, Unliteral t := by
  induction h with
  | nil => simp
  | blank _ _ ih => exact ih (List.forall_mem_cons.mp hw).2
  | @token t ts w hlex _ _ ih =>
    obtain ⟨htext, hrest⟩ := unquoted_append.mp hw
    refine List.forall_mem_cons.mpr ⟨⟨hlex, ?_⟩, ih hrest⟩
    rintro hkind
    cases hlex with
    | @text c inner hc _ =>
      obtain ⟨hdouble, hsingle⟩ := htext c (by simp)
      exact hc.elim hdouble hsingle
    | _ => simp at hkind

/-! ### Expressions that are read of them -/

/-- Parameters with names that the scanner makes are printable. -/
lemma paramsPrintable_of_unliteral {ps : List TypeParam} (h : ∀ p ∈ ps, ParamOf Unliteral p) :
    ParamsPrintable ps := by
  intro p hp
  rcases h p hp with ⟨hname, hoptional⟩ | ⟨t, ⟨hlex, hkind⟩, hmay, hname⟩
  · rw [hname, hoptional]
    simp
  · have ht : IsName t.text := isName_of_kind hlex (hmay.resolve_right hkind)
    rw [hname, unquote_of_isName ht]
    exact ⟨fun name hmem => Option.mem_some.mp hmem ▸ ht, fun _ => rfl⟩

/-- A name is printable, also as a promise without a result. -/
lemma printable_ofName {name : Text} (h : IsName name) : Printable (ofName name) := by
  rcases ofName_cases name with ⟨-, heq⟩ | ⟨hpromise, heq⟩ <;> rw [heq]
  · trivial
  · exact Or.inr ⟨h, hpromise⟩

/-- A named type with arguments is printable, whichever node it is. -/
lemma printable_ofArguments {name : Text} {args : List TypeExpr} (h : IsName name)
    (hne : args ≠ []) : Printable (ofArguments name args) := by
  rcases ofArguments_cases name args with ⟨result, -, -, heq⟩ | ⟨hpromise, heq⟩ <;> rw [heq]
  · trivial
  · exact ⟨h, hne, hpromise⟩

/-- An object or map is printable if the names of its fields are. -/
lemma printable_ofFields {fields : List TypeParam} (h : ParamsPrintable fields) :
    Printable (ofFields fields) := by
  rcases ofFields_cases fields with ⟨type, -, heq⟩ | ⟨hstring, heq⟩ <;> rw [heq]
  · trivial
  · exact ⟨h, hstring⟩

/-- A plain node is plain whether literals are allowed or not. -/
lemma Bare.plain (h : Bare t) : Plain t := by
  cases t with
  | literal text => exact absurd h id
  | _ => exact h

/-- A printable node that is no literal is bare. -/
lemma Printable.bare (h : Printable t) (hliteral : ∀ text, t ≠ .literal text) : Bare t := by
  cases t with
  | literal text => exact absurd rfl (hliteral text)
  | _ => exact h.plain

/-- A name is never read as a literal. -/
lemma ofName_ne_literal (name text : Text) : ofName name ≠ .literal text := by
  rcases ofName_cases name with ⟨-, h⟩ | ⟨-, h⟩ <;> simp [h]

lemma ofArguments_ne_literal (name text : Text) (args : List TypeExpr) :
    ofArguments name args ≠ .literal text := by
  rcases ofArguments_cases name args with ⟨result, -, -, h⟩ | ⟨-, h⟩ <;> simp [h]

lemma ofFields_ne_literal (fields : List TypeParam) (text : Text) :
    ofFields fields ≠ .literal text := by
  rcases ofFields_cases fields with ⟨type, -, h⟩ | ⟨-, h⟩ <;> simp [h]

/-- The nodes that the reader makes of tokens without quotation marks are bare. -/
lemma constructs_bare : Constructs Unliteral Bare where
  unknown := Or.inl rfl
  name t ht hkind :=
    (printable_ofName (isName_of_kind ht.1 hkind)).bare (ofName_ne_literal t.text)
  reference _ ht hkind := isName_of_kind ht.1 hkind
  literal _ ht hkind := absurd hkind ht.2
  array _ := trivial
  indexed _ := trivial
  applied t args ht hkind hne :=
    (printable_ofArguments (isName_of_kind ht.1 hkind) hne).bare
      fun text => ofArguments_ne_literal t.text text args
  fields fields h :=
    (printable_ofFields (paramsPrintable_of_unliteral h)).bare (ofFields_ne_literal fields)
  function _ _ h := ⟨paramsPrintable_of_unliteral h, by simp⟩
  arrow _ _ h := ⟨paramsPrintable_of_unliteral h, fun _ => rfl⟩
  choice _ hlen := hlen

/-- The expression that a text without quotation marks writes is bare. -/
lemma bare_of_parseStrict (hw : Unquoted w) (h : parseStrict w = .ok e) : Everywhere Bare e := by
  rw [parseStrict] at h
  split at h
  · simp at h
  · next ts hts =>
    exact constructs_bare.everywhere_of_ofTokens
      (unliteral_of_spells (Token.tokens_eq_ok_iff.mp hts) hw) h

end

/-! ### Nested choices -/

/-- A choice with the members of its choices in one list. -/
def spliced : TypeExpr → TypeExpr
  | .union members => .union (members.flatMap choices)
  | t => t

/-- The expression with no choice directly inside a choice. -/
def flattened (t : TypeExpr) : TypeExpr :=
  t.rebuild spliced

/-- No choice is a member of a choice, and the notation tells every other node from the rest. -/
def Flat : TypeExpr → Prop
  | .union members => 2 ≤ members.length ∧ ∀ m ∈ members, m.isUnion = false
  | t => Printable t

/-- No member of a choice but the last takes the members behind it. -/
def Apart : TypeExpr → Prop
  | .union members => ∀ m ∈ members.dropLast, ¬ m.TakesMembers
  | _ => True

/-- In front of the other members of a choice, nested or not, stands no function with a return
type. -/
def Separate (t : TypeExpr) : Prop :=
  Everywhere Apart t.flattened

section

variable {t : TypeExpr} {ms more : List TypeExpr}

/-- A node is printable if it is flat and its members are apart. -/
lemma printable_iff : Printable t ↔ Flat t ∧ Apart t := by
  cases t with
  | union members => exact and_assoc.symm
  | _ => exact ⟨fun h => ⟨h, trivial⟩, And.left⟩

/-- An expression is printable if it is flat and apart everywhere. -/
lemma everywhere_printable : Everywhere Printable t ↔ Everywhere Flat t ∧ Everywhere Apart t := by
  rw [← everywhere_and]
  exact forall₂_congr fun _ _ => printable_iff

/-- Flattening a choice puts the choices of its members in one list. -/
lemma flattened_union (ms : List TypeExpr) :
    flattened (.union ms) = .union (ms.flatMap fun m => m.flattened.choices) := by
  simp [flattened, rebuild, rebuildList_eq_map, spliced, List.flatMap_map]

lemma flattened_promise (result : Option TypeExpr) :
    flattened (.promise result) = .promise (result.map flattened) := by
  cases result <;> rfl

lemma flattened_generic (name : Text) (args : List TypeExpr) :
    flattened (.generic name args) = .generic name (args.map flattened) := by
  rw [flattened, rebuild, rebuildList_eq_map]
  rfl

lemma flattened_object (fields : List TypeParam) :
    flattened (.object fields) =
      .object (fields.map fun p => { p with type := p.type.flattened }) := by
  rw [flattened, rebuild, rebuildParams_eq_map]
  rfl

/-- Flattening goes into parameters and results. -/
lemma flattened_function (params : List TypeParam) (returns : Option TypeExpr) (arrow : Bool) :
    flattened (.function params returns arrow) =
      .function (params.map fun p => { p with type := p.type.flattened })
        (returns.map flattened) arrow := by
  rw [flattened, rebuild, rebuildParams_eq_map, rebuildOption_eq_map]
  rfl

/-- No choice is among the choices of a flattened expression. -/
lemma isUnion_of_mem_choices_flattened (t : TypeExpr) :
    ∀ m ∈ t.flattened.choices, m.isUnion = false := by
  induction t with
  | union members ih =>
    intro m hm
    rw [flattened_union] at hm
    obtain ⟨k, hk, hmk⟩ := List.mem_flatMap.mp hm
    exact ih k hk m hmk
  | promise result => simp [flattened_promise, choices, isUnion]
  | generic name args => simp [flattened_generic, choices, isUnion]
  | object fields => simp [flattened_object, choices, isUnion]
  | function params returns arrow => simp [flattened_function, choices, isUnion]
  | _ => simp [flattened, rebuild, spliced, choices, isUnion]

/-- The choices of a flat expression are flat, and there is at least one. -/
lemma Flat.everywhere_choices (h : Everywhere Flat t) :
    t.choices ≠ [] ∧ ∀ m ∈ t.choices, Everywhere Flat m := by
  cases t with
  | union members =>
    obtain ⟨⟨hlen, -⟩, hm⟩ := (everywhere_union members).mp h
    exact ⟨List.ne_nil_of_length_pos (Nat.zero_lt_of_lt hlen), hm⟩
  | _ => exact ⟨List.cons_ne_nil _ _, List.forall_mem_singleton.mpr h⟩

/-- A flattened plain expression is flat. -/
lemma flat_flattened (h : Everywhere Plain t) : Everywhere Flat t.flattened := by
  induction t with
  | atom name => exact (everywhere_atom name).mpr h.self
  | reference name => exact (everywhere_reference name).mpr h.self
  | literal text => exact (everywhere_literal text).mpr h.self
  | raw text => exact (everywhere_raw text).mpr h.self
  | array element ih =>
    obtain ⟨-, he⟩ := (everywhere_array element).mp h
    exact (everywhere_array _).mpr ⟨trivial, ih he⟩
  | map value indexed ih =>
    obtain ⟨-, hv⟩ := (everywhere_map value indexed).mp h
    exact (everywhere_map ..).mpr ⟨trivial, ih hv⟩
  | promise result ih =>
    obtain ⟨-, hr⟩ := (everywhere_promise result).mp h
    rw [flattened_promise, everywhere_promise]
    refine ⟨trivial, fun r hmem => ?_⟩
    obtain ⟨r', hr', rfl⟩ := Option.map_eq_some_iff.mp hmem
    exact ih r' hr' (hr r' hr')
  | generic name args ih =>
    obtain ⟨⟨hname, hne, hpromise⟩, ha⟩ := (everywhere_generic name args).mp h
    rw [flattened_generic, everywhere_generic]
    refine ⟨⟨hname, by simpa using hne, by simpa using hpromise⟩, ?_⟩
    exact List.forall_mem_map.mpr fun a hmem => ih a hmem (ha a hmem)
  | object fields ih =>
    obtain ⟨⟨hnames, hstring⟩, hp⟩ := (everywhere_object fields).mp h
    rw [flattened_object, everywhere_object]
    refine ⟨⟨List.forall_mem_map.mpr hnames, ?_⟩,
      List.forall_mem_map.mpr fun p hmem => ih p hmem (hp p hmem)⟩
    rintro ⟨type, heq⟩
    obtain ⟨⟨name, type', optional⟩, rfl, hparam⟩ := List.map_eq_singleton_iff.mp heq
    obtain ⟨rfl, -, rfl⟩ := Param.mk.inj hparam
    exact hstring ⟨type', rfl⟩
  | function params returns arrow ihp ihr =>
    obtain ⟨⟨hnames, harrow⟩, hp, hr⟩ := (everywhere_function ..).mp h
    rw [flattened_function, everywhere_function]
    refine ⟨⟨List.forall_mem_map.mpr hnames, by simpa using harrow⟩,
      List.forall_mem_map.mpr fun p hmem => ihp p hmem (hp p hmem), fun r hmem => ?_⟩
    obtain ⟨r', hr', rfl⟩ := Option.map_eq_some_iff.mp hmem
    exact ihr r' hr' (hr r' hr')
  | union members ih =>
    obtain ⟨hlen, hm⟩ := (everywhere_union members).mp h
    -- no member of a flattened choice is a choice itself, and each gives one at least
    have hchoices := fun m hmem => Flat.everywhere_choices (ih m hmem (hm m hmem))
    rw [flattened_union, everywhere_union]
    refine ⟨⟨hlen.trans ?_, fun k hk => ?_⟩, fun k hk => ?_⟩
    · rw [List.length_flatMap]
      have hone : ∀ i ∈ members.map fun m => m.flattened.choices.length, 1 ≤ i :=
        List.forall_mem_map.mpr fun m hmem => List.length_pos_of_ne_nil (hchoices m hmem).1
      simpa using List.length_le_sum_of_one_le _ hone
    · obtain ⟨m, -, hkm⟩ := List.mem_flatMap.mp hk
      exact isUnion_of_mem_choices_flattened m k hkm
    · obtain ⟨m, hmem, hkm⟩ := List.mem_flatMap.mp hk
      exact (hchoices m hmem).2 k hkm

/-- Flattening leaves a printable expression as it is. -/
lemma flattened_eq_self (h : Everywhere Printable t) : t.flattened = t := by
  refine rebuild_eq_self (h.imp fun n hn => ?_)
  cases n with
  | union members =>
    have hchoices : members.flatMap choices = members.flatMap fun m => [m] :=
      List.flatMap_congr fun m hm => choices_of_not_union (hn.2.1 m hm)
    rw [spliced, hchoices, List.flatMap_singleton']
  | _ => rfl

/-! ### Reading flattened expressions -/

/-- Members are read again from the last one on, so a list may be cut anywhere. -/
lemma rereadMembersOfList_append (xs ys more : List TypeExpr) :
    rereadMembersOfList (xs ++ ys) more = rereadMembersOfList xs (rereadMembersOfList ys more) := by
  induction xs with
  | nil => rfl
  | cons x xs ih => rw [List.cons_append, rereadMembersOfList, rereadMembersOfList, ih]

/-- The choices of an expression are read again like the expression. -/
lemma rereadMembersOfList_choices (t : TypeExpr) (more : List TypeExpr) :
    rereadMembersOfList t.choices more = rereadMembers t more := by
  cases t <;> rfl

/-- The text of a flattened expression reads as that of the expression. -/
lemma rereadMembers_flattened (t : TypeExpr) (more : List TypeExpr) :
    rereadMembers t.flattened more = rereadMembers t more := by
  have hreread : ∀ t : TypeExpr, (∀ more, rereadMembers t.flattened more = rereadMembers t more) →
      t.flattened.reread = t.reread := fun t ht => congrArg ofMembers (ht [])
  have hparams : ∀ ps : List TypeParam,
      (∀ p ∈ ps, ∀ more, rereadMembers p.type.flattened more = rereadMembers p.type more) →
      rereadParams (ps.map fun p => { p with type := p.type.flattened }) = rereadParams ps := by
    intro ps hps
    rw [rereadParams_eq_map, rereadParams_eq_map, List.map_map]
    refine List.map_congr_left fun p hp => ?_
    simp only [Function.comp_apply, hreread p.type (hps p hp)]
  -- `more` is general: behind a function it becomes part of the return type
  induction t generalizing more with
  | atom name => rfl
  | reference name => rfl
  | literal text => rfl
  | raw text => rfl
  | array element ih =>
    exact congrArg (fun e => TypeExpr.array e :: more) (hreread element ih)
  | map value indexed ih =>
    exact congrArg (fun e => TypeExpr.map e indexed :: more) (hreread value ih)
  | promise result ih =>
    rw [flattened_promise]
    cases result with
    | none => rfl
    | some r => exact congrArg (fun e => TypeExpr.promise (some e) :: more) (hreread r (ih r rfl))
  | generic name args ih =>
    have hargs : rereadList (args.map flattened) = rereadList args := by
      rw [rereadList_eq_map, rereadList_eq_map, List.map_map]
      exact List.map_congr_left fun a ha => hreread a (ih a ha)
    rw [flattened_generic, rereadMembers, rereadMembers, hargs]
  | object fields ih => rw [flattened_object, rereadMembers, rereadMembers, hparams fields ih]
  | function params returns arrow ihp ihr =>
    have hreturns : rereadMembersOfOption (returns.map flattened) more =
        rereadMembersOfOption returns more := by
      cases returns with
      | none => rfl
      | some r => exact congrArg some (ihr r rfl more)
    rw [flattened_function, rereadMembers, rereadMembers, hparams params ihp, hreturns]
  | union members ih =>
    rw [flattened_union, rereadMembers, rereadMembers]
    induction members with
    | nil => rfl
    | cons m ms ihms =>
      rw [List.flatMap_cons, rereadMembersOfList_append, rereadMembersOfList_choices,
        ihms fun k hk => ih k (List.mem_cons_of_mem m hk), ih m (List.mem_cons_self ..)]
      rfl

/-- Flattening makes no difference to what is read of the text. -/
lemma reread_flattened (t : TypeExpr) : t.flattened.reread = t.reread :=
  congrArg ofMembers (rereadMembers_flattened t [])

/-! ### What is read is printable -/

/-- Members that make a printable choice. -/
def Listed (ms : List TypeExpr) : Prop :=
  (∀ m ∈ ms, Everywhere Printable m ∧ m.isUnion = false) ∧ ∀ m ∈ ms.dropLast, ¬ m.TakesMembers

lemma listed_nil : Listed [] := by
  simp [Listed]

/-- A printable member goes in front of listed ones if it does not take them. -/
lemma listed_cons (ht : Everywhere Printable t) (hunion : t.isUnion = false)
    (htakes : ¬ t.TakesMembers) (h : Listed more) : Listed (t :: more) := by
  refine ⟨List.forall_mem_cons.mpr ⟨⟨ht, hunion⟩, h.1⟩, ?_⟩
  cases more with
  | nil => simp
  | cons n ns =>
    rw [List.dropLast_cons_cons]
    exact List.forall_mem_cons.mpr ⟨htakes, h.2⟩

lemma listed_singleton (ht : Everywhere Printable t) (hunion : t.isUnion = false) : Listed [t] :=
  ⟨List.forall_mem_singleton.mpr ⟨ht, hunion⟩, by simp⟩

/-- Listed members make a printable choice, or are printable alone. -/
lemma Listed.printable_ofMembers (h : Listed ms) (hne : ms ≠ []) :
    Everywhere Printable (ofMembers ms) := by
  match ms, hne with
  | [m], _ => exact (h.1 m (List.mem_singleton_self m)).1
  | m :: n :: ns, _ =>
    exact (everywhere_union _).mpr
      ⟨⟨by simp, fun k hk => (h.1 k hk).2, h.2⟩, fun k hk => (h.1 k hk).1⟩

/-- The members read of a plain expression make a printable choice if those behind it do. -/
def RereadsListed (t : TypeExpr) : Prop :=
  ∀ more, Listed more → Listed (rereadMembers t more)

/-- What is read of a plain expression is printable. -/
lemma RereadsListed.printable (h : RereadsListed t) (ht : Everywhere Plain t) :
    Everywhere Printable t.reread :=
  (h [] listed_nil).printable_ofMembers (rereadMembers_spec (Plain.legible ht) []).1

/-- An expression that is read alone is one more member. -/
lemma rereadsListed_of_alone (ht : Everywhere Plain t) (halone : t.isCompound = false)
    (h : Everywhere Printable t.reread) : RereadsListed t := by
  have hcompound : t.reread.isCompound = false :=
    (isCompound_reread (Plain.legible ht)).trans halone
  intro more hmore
  rw [rereadMembers_of_not_compound halone]
  cases hread : t.reread with
  | function => simp [hread, isCompound] at hcompound
  | union => simp [hread, isCompound] at hcompound
  | _ => exact listed_cons (hread ▸ h) rfl id hmore

/-- Reading again keeps the names of parameters, and so that they are printable. -/
lemma paramsPrintable_rereadParams {ps : List TypeParam} (h : ParamsPrintable ps) :
    ParamsPrintable (rereadParams ps) := by
  rw [rereadParams_eq_map]
  refine List.forall_mem_map.mpr fun p hp => ⟨(h p hp).1, fun hoptional => ?_⟩
  exact (Bool.and_eq_true_iff.mp hoptional).1

/-- Parameters are printable when their types are read again. -/
lemma printable_rereadParams {ps : List TypeParam}
    (h : ∀ p ∈ ps, Everywhere Printable p.type.reread) :
    ∀ p ∈ rereadParams ps, Everywhere Printable p.type := by
  rw [rereadParams_eq_map]
  exact List.forall_mem_map.mpr h

/-- A function takes all members behind it into its result, and is listed alone. -/
lemma rereadsListed_function {params : List TypeParam} {returns : Option TypeExpr} {arrow : Bool}
    (hps : ParamsPrintable params) (harrow : arrow = true → returns.isSome = true)
    (hp : ∀ p ∈ params, Everywhere Printable p.type.reread)
    (hr : ∀ r ∈ returns, RereadsListed r ∧ Everywhere Plain r) :
    RereadsListed (.function params returns arrow) := by
  intro more hmore
  have hparams := printable_rereadParams hp
  cases returns with
  | none =>
    obtain rfl : arrow = false := by simpa using harrow
    have hfunction : Everywhere Printable (.function (rereadParams params) none false) :=
      (everywhere_function ..).mpr
        ⟨⟨paramsPrintable_rereadParams hps, by simp⟩, hparams, by simp⟩
    have htakes : ¬ TakesMembers (.function (rereadParams params) none false) := by
      simp [TakesMembers]
    simpa [rereadMembers, rereadMembersOfOption] using
      listed_cons hfunction rfl htakes hmore
  | some r =>
    obtain ⟨hlisted, hplain⟩ := hr r rfl
    have hreturn : Everywhere Printable (ofMembers (rereadMembers r more)) :=
      (hlisted more hmore).printable_ofMembers (rereadMembers_spec (Plain.legible hplain) more).1
    refine listed_singleton ((everywhere_function ..).mpr
      ⟨⟨paramsPrintable_rereadParams hps, fun _ => rfl⟩, hparams, fun k hk => ?_⟩) rfl
    obtain rfl := Option.mem_some.mp hk
    exact hreturn

/-- Whatever is read of a plain expression is listed in front of listed members. -/
lemma rereadsListed (h : Everywhere Plain t) : RereadsListed t := by
  induction t with
  | atom name =>
    refine rereadsListed_of_alone h rfl (everywhere_ofName.mpr ?_)
    rcases h.self with rfl | ⟨hname, -⟩
    · exact Or.inl rfl
    · exact printable_ofName hname
  | reference name => exact rereadsListed_of_alone h rfl ((everywhere_reference name).mpr h.self)
  | literal text => exact rereadsListed_of_alone h rfl ((everywhere_literal text).mpr h.self)
  | raw text => exact absurd h.self id
  | array element ih =>
    obtain ⟨-, he⟩ := (everywhere_array element).mp h
    exact rereadsListed_of_alone h rfl ((everywhere_array _).mpr ⟨trivial, (ih he).printable he⟩)
  | map value indexed ih =>
    obtain ⟨-, hv⟩ := (everywhere_map value indexed).mp h
    exact rereadsListed_of_alone h rfl ((everywhere_map ..).mpr ⟨trivial, (ih hv).printable hv⟩)
  | promise result ih =>
    obtain ⟨-, hr⟩ := (everywhere_promise result).mp h
    refine rereadsListed_of_alone h rfl ((everywhere_promise _).mpr ⟨trivial, fun r hmem => ?_⟩)
    rw [rereadOption_eq_map] at hmem
    obtain ⟨r', hr', rfl⟩ := Option.map_eq_some_iff.mp hmem
    exact (ih r' hr' (hr r' hr')).printable (hr r' hr')
  | generic name args ih =>
    obtain ⟨⟨hname, hne, -⟩, ha⟩ := (everywhere_generic name args).mp h
    have hargs : rereadList args ≠ [] := by simpa [rereadList_eq_map] using hne
    refine rereadsListed_of_alone h rfl
      (everywhere_ofArguments.mpr ⟨printable_ofArguments hname hargs, ?_⟩)
    rw [rereadList_eq_map]
    exact List.forall_mem_map.mpr fun a hmem => (ih a hmem (ha a hmem)).printable (ha a hmem)
  | object fields ih =>
    obtain ⟨⟨hnames, -⟩, hp⟩ := (everywhere_object fields).mp h
    exact rereadsListed_of_alone h rfl (everywhere_ofFields.mpr
      ⟨printable_ofFields (paramsPrintable_rereadParams hnames),
        printable_rereadParams fun p hmem => (ih p hmem (hp p hmem)).printable (hp p hmem)⟩)
  | function params returns arrow ihp ihr =>
    obtain ⟨⟨hnames, harrow⟩, hp, hr⟩ := (everywhere_function ..).mp h
    exact rereadsListed_function hnames harrow
      (fun p hmem => (ihp p hmem (hp p hmem)).printable (hp p hmem))
      fun r hmem => ⟨ihr r hmem (hr r hmem), hr r hmem⟩
  | union members ih =>
    obtain ⟨-, hm⟩ := (everywhere_union members).mp h
    clear h
    intro more hmore
    -- from the last member on, since each is read with those behind it
    induction members with
    | nil => exact hmore
    | cons m ms ihms =>
      have hrest := ihms (fun k hk => ih k (List.mem_cons_of_mem m hk))
        fun k hk => hm k (List.mem_cons_of_mem m hk)
      exact ih m (List.mem_cons_self ..) (hm m (List.mem_cons_self ..)) _ hrest

/-- What is read of the text of a plain expression is printable. -/
lemma printable_reread (h : Everywhere Plain t) : Everywhere Printable t.reread :=
  (rereadsListed h).printable h

/-! ### Texts of plain expressions -/

/-- Texts without quotation marks have none when they are put together. -/
lemma unquoted_joinWith {separator : Text} {ws : List Text} (hs : Unquoted separator)
    (h : ∀ w ∈ ws, Unquoted w) : Unquoted (Text.joinWith separator ws) := by
  induction ws with
  | nil => simp [Unquoted, Text.joinWith]
  | cons w ws ih =>
    obtain ⟨hw, hrest⟩ := List.forall_mem_cons.mp h
    cases ws with
    | nil => exact hw
    | cons v ws =>
      rw [Text.joinWith_cons_cons]
      exact unquoted_append.mpr ⟨unquoted_append.mpr ⟨hw, hs⟩, ih hrest⟩

lemma unquoted_of_isName {name : Text} (h : IsName name) : Unquoted name := by
  have hquote : ∀ c, isNameRest c = true ∨ c = '.' → c ≠ '"' ∧ c ≠ '\'' := by
    rintro c (hc | rfl)
    · constructor <;>
        · rintro rfl
          exact absurd hc (by decide)
    · decide
  cases h with
  | name hc hw =>
    exact unquoted_cons.mpr ⟨hquote _ (Or.inl (Token.isNameRest_of_first hc)),
      fun c hmem => hquote c (hw.forall_mem c hmem)⟩

/-- Parameters are written without quotation marks if their types are. -/
lemma unquoted_renderParams {ps : List TypeParam} (hnames : ParamsPrintable ps)
    (h : ∀ p ∈ ps, Unquoted p.type.render) :
    Unquoted (Text.joinWith ", " (renderParams ps)) := by
  rw [renderParams_eq_map]
  refine unquoted_joinWith (by simp [Unquoted]) (List.forall_mem_map.mpr fun p hp => ?_)
  have htype := h p hp
  cases hname : p.name with
  | none => exact htype
  | some name =>
    have hunquoted := unquoted_of_isName ((hnames p hp).1 name hname)
    rw [namedText]
    refine unquoted_append.mpr ⟨unquoted_append.mpr ⟨hunquoted, ?_⟩, htype⟩
    cases p.optional <;> simp [Unquoted]

/-- The text of a bare expression has no quotation marks. -/
lemma unquoted_render (h : Everywhere Bare t) : Unquoted t.render := by
  induction t with
  | atom name =>
    rcases h.self with rfl | ⟨hname, -⟩
    · simp [Unquoted, render]
    · exact unquoted_of_isName hname
  | reference name => exact unquoted_cons.mpr ⟨by simp, unquoted_of_isName h.self⟩
  | literal text => exact absurd h.self id
  | raw text => exact absurd h.self id
  | array element ih =>
    obtain ⟨-, he⟩ := (everywhere_array element).mp h
    rw [render, parenthesizedIf]
    refine unquoted_append.mpr ⟨?_, by simp [Unquoted]⟩
    split_ifs
    · exact unquoted_cons.mpr ⟨by simp, unquoted_append.mpr ⟨ih he, by simp [Unquoted]⟩⟩
    · exact ih he
  | map value indexed ih =>
    obtain ⟨-, hv⟩ := (everywhere_map value indexed).mp h
    rw [render]
    refine unquoted_append.mpr ⟨unquoted_append.mpr ⟨?_, ih hv⟩, by simp [Unquoted]⟩
    cases indexed <;> simp [Unquoted]
  | promise result ih =>
    obtain ⟨-, hr⟩ := (everywhere_promise result).mp h
    cases result with
    | none => simp [Unquoted, render, renderOption]
    | some r =>
      have hresult := ih r rfl (hr r rfl)
      exact unquoted_append.mpr
        ⟨unquoted_append.mpr ⟨by simp [Unquoted], hresult⟩, by simp [Unquoted]⟩
  | generic name args ih =>
    obtain ⟨⟨hname, -⟩, ha⟩ := (everywhere_generic name args).mp h
    have hargs : Unquoted (Text.joinWith ", " (renderList args)) := by
      rw [renderList_eq_map]
      exact unquoted_joinWith (by simp [Unquoted])
        (List.forall_mem_map.mpr fun a hmem => ih a hmem (ha a hmem))
    rw [render]
    refine unquoted_append.mpr ⟨unquoted_append.mpr ⟨unquoted_append.mpr ⟨?_, ?_⟩, hargs⟩, ?_⟩
    · exact unquoted_of_isName hname
    · simp [Unquoted]
    · simp [Unquoted]
  | object fields ih =>
    obtain ⟨⟨hnames, -⟩, hp⟩ := (everywhere_object fields).mp h
    have hfields := unquoted_renderParams hnames fun p hmem => ih p hmem (hp p hmem)
    rw [render]
    exact unquoted_cons.mpr ⟨by simp, unquoted_append.mpr ⟨hfields, by simp [Unquoted]⟩⟩
  | function params returns arrow ihp ihr =>
    obtain ⟨⟨hnames, harrow⟩, hp, hr⟩ := (everywhere_function ..).mp h
    have hparams := unquoted_renderParams hnames fun p hmem => ihp p hmem (hp p hmem)
    have hhead : ∀ opened closed : Text, Unquoted opened → Unquoted closed →
        Unquoted (opened ++ Text.joinWith ", " (renderParams params) ++ closed) :=
      fun _ _ ho hc => unquoted_append.mpr ⟨unquoted_append.mpr ⟨ho, hparams⟩, hc⟩
    cases returns with
    | none =>
      obtain rfl : arrow = false := by simpa using harrow
      exact hhead "fn(" ")" (by simp [Unquoted]) (by simp [Unquoted])
    | some r =>
      have hreturn := ihr r rfl (hr r rfl)
      rw [render_function_some, functionHead]
      refine unquoted_append.mpr ⟨?_, hreturn⟩
      cases arrow
      · exact hhead "fn(" ") -> " (by simp [Unquoted]) (by simp [Unquoted])
      · exact hhead ['('] ") => " (by simp [Unquoted]) (by simp [Unquoted])
  | union members ih =>
    obtain ⟨-, hm⟩ := (everywhere_union members).mp h
    rw [render, renderList_eq_map]
    exact unquoted_joinWith (by simp [Unquoted])
      (List.forall_mem_map.mpr fun m hmem => ih m hmem (hm m hmem))

/-! ### Conflated expressions -/

/-- Two legible expressions have the same text if and only if it reads as the same expression. -/
lemma render_eq_render_iff {t u : TypeExpr} (ht : Everywhere Legible t)
    (hu : Everywhere Legible u) : t.render = u.render ↔ t.reread = u.reread := by
  constructor
  · intro h
    have hread := parseStrict_render ht
    rw [h, parseStrict_render hu] at hread
    exact (Except.ok.inj hread).symm
  · intro h
    rw [← render_reread ht, h, render_reread hu]

/-- The text of a plain expression reads as the flattened expression if and only if the expression is
separate. -/
lemma reread_eq_flattened_iff (h : Everywhere Plain t) : t.reread = t.flattened ↔ Separate t := by
  constructor
  · intro heq
    have hprintable : Everywhere Printable t.flattened := heq ▸ printable_reread h
    exact (everywhere_printable.mp hprintable).2
  · intro hseparate
    have hprintable := everywhere_printable.mpr ⟨flat_flattened h, hseparate⟩
    rw [← reread_flattened, reread_eq_self hprintable]

/-- Expressions that are read of texts without quotation marks have the same text if and only if it
reads as the same expression.  Separate ones then agree up to the nesting of choices; the text of any
other one is also that of an expression which is read of it and differs in more than the nesting. -/
theorem render_eq_iff {v w : Text} (hv : Unquoted v) (hw : Unquoted w) {t u : TypeExpr}
    (ht : parseStrict v = .ok t) (hu : parseStrict w = .ok u) :
    (t.render = u.render ↔ t.reread = u.reread) ∧
      (Separate t → Separate u → (t.render = u.render ↔ t.flattened = u.flattened)) ∧
      (¬ Separate t → Unquoted t.render ∧
        ∃ e, parseStrict t.render = .ok e ∧ e.render = t.render ∧ e.flattened ≠ t.flattened) := by
  have hbare := bare_of_parseStrict hv ht
  have htplain : Everywhere Plain t := hbare.imp fun _ hn => hn.plain
  have huplain : Everywhere Plain u := (bare_of_parseStrict hw hu).imp fun _ hn => hn.plain
  have hrender := render_eq_render_iff (Plain.legible htplain) (Plain.legible huplain)
  refine ⟨hrender, fun hts hus => ?_, fun hseparate => ⟨unquoted_render hbare, t.reread, ?_⟩⟩
  · rw [hrender, (reread_eq_flattened_iff htplain).mpr hts,
      (reread_eq_flattened_iff huplain).mpr hus]
  · refine ⟨parseStrict_render (Plain.legible htplain), render_reread (Plain.legible htplain), ?_⟩
    rw [flattened_eq_self (printable_reread htplain)]
    exact fun heq => hseparate ((reread_eq_flattened_iff htplain).mp heq)

/-- A choice whose first member is a function. -/
def choiceOfFunction : TypeExpr :=
  .union [.function [] (some (.atom "a")) false, .atom "b"]

/-- A function that returns a choice. -/
def functionToChoice : TypeExpr :=
  .function [] (some (.union [.atom "a", .atom "b"])) false

/-- Parentheses keep a function together as a member of a choice. -/
lemma parseStrict_choiceOfFunction : parseStrict "(fn() -> a) | b" = .ok choiceOfFunction := by
  have htokens : Token.tokens "(fn() -> a) | b" = .ok [mark '(', word "fn", mark '(', mark ')',
      thinArrow, word "a", mark ')', mark '|', word "b"] := by
    decide +kernel
  rw [parseStrict, htokens]
  simp [ofTokens, choiceOfFunction, parseType, parseMembers, parsePostfix, parsePrimary, parseArrow?,
    parseFunction, parseParams, parseSomeParams, parseParam, paramHead?, parseNamed, arraySuffixes,
    startsWith, after?, afterBoth?, next, expect, ofMembers, ofName, mark, word, thinArrow]

/-- Without parentheses the choice belongs to the result of the function. -/
lemma parseStrict_functionToChoice : parseStrict "fn() -> a | b" = .ok functionToChoice := by
  have ha : IsName ['a'] := Token.IsIdentifier.isName (by decide)
  have hb : IsName ['b'] := Token.IsIdentifier.isName (by decide)
  have hprintable : Everywhere Printable functionToChoice := by
    simp [functionToChoice, Printable, ParamsPrintable, isUnion, TakesMembers, ha, hb]
  exact parseStrict_render_of_printable hprintable

/-- A function with a result stands in front of another member. -/
lemma not_separate_choiceOfFunction : ¬ Separate choiceOfFunction := by
  intro h
  have hapart : Apart choiceOfFunction.flattened := h.self
  exact hapart (.function [] (some (.atom "a")) false) (List.mem_cons_self ..) (Or.inr rfl)

/-- Two types that differ are written alike, because the parentheses around a function are not
written. -/
theorem render_eq_iff_choiceOfFunction :
    Unquoted "(fn() -> a) | b" ∧ parseStrict "(fn() -> a) | b" = .ok choiceOfFunction ∧
      Unquoted "fn() -> a | b" ∧ parseStrict "fn() -> a | b" = .ok functionToChoice ∧
      (choiceOfFunction.render = functionToChoice.render ↔
        choiceOfFunction.reread = functionToChoice.reread) ∧
      ∃ e, parseStrict choiceOfFunction.render = .ok e ∧ e.render = choiceOfFunction.render ∧
        e.flattened ≠ choiceOfFunction.flattened := by
  have hv : Unquoted "(fn() -> a) | b" := by simp [Unquoted]
  have hw : Unquoted "fn() -> a | b" := by simp [Unquoted]
  have ht := parseStrict_choiceOfFunction
  have hu := parseStrict_functionToChoice
  obtain ⟨hrender, -, hconflated⟩ := render_eq_iff hv hw ht hu
  exact ⟨hv, ht, hw, hu, hrender, (hconflated not_separate_choiceOfFunction).2⟩

/-- A function in parentheses with another member behind it has the text of a function that returns
the choice, and the two differ in more than the nesting of choices. -/
theorem render_choiceOfFunction :
    Unquoted "(fn() -> a) | b" ∧ parseStrict "(fn() -> a) | b" = .ok choiceOfFunction ∧
      Unquoted "fn() -> a | b" ∧ parseStrict "fn() -> a | b" = .ok functionToChoice ∧
      choiceOfFunction.flattened ≠ functionToChoice.flattened ∧
      choiceOfFunction.render = functionToChoice.render := by
  refine ⟨by simp [Unquoted], parseStrict_choiceOfFunction, by simp [Unquoted],
    parseStrict_functionToChoice, ?_, rfl⟩
  rw [choiceOfFunction, functionToChoice, flattened_union, flattened_function]
  simp

end

end TypeExpr

end Ambient
