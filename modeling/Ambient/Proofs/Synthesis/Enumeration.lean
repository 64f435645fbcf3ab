import Mathlib
import Ambient.Synthesis.Enumeration

/-!
# One string at a time

An enumeration takes the place of the first `string` that a signature shows.  The slots that are left
are the ones behind it, so several enumerations one after another take the first slots in their order,
each slot once.

Finding the slots and filling one of them are two case analyses.  They meet in `typeAt?`, the type that
a signature shows in a place: the slots are the places that show `string` (`stringSlots_eq_filter`), and
filling a place changes what it shows and nothing else (`Fills.shown`).
-/

namespace Ambient

namespace Signature

/-! ### The places of a signature -/

/-- A signature with another type. -/
def withType (s : Signature) (t : TypeExpr) : Signature :=
  { s with type := t }

/-- The places of a signature, in the order of the declaration: the parameters and the return type of a
function whose form shows them, and the type itself otherwise. -/
def places (s : Signature) : List StringSlot :=
  match s.hasParameterList, s.type with
  | true, .function params returns _ =>
    (List.range params.length).map .param ++ returns.toList.map fun _ => .returns
  | _, _ => [.type]

/-- The type that a signature shows in a place. -/
def typeAt? (s : Signature) (slot : StringSlot) : Option TypeExpr :=
  match s.hasParameterList, s.type with
  | true, .function params returns _ =>
    match slot with
    | .type => none
    | .param i => params[i]?.map Param.type
    | .returns => returns
  | _, t => if slot = .type then some t else none

/-- Whether a signature shows `string` in a place. -/
def showsString (s : Signature) (slot : StringSlot) : Bool :=
  (s.typeAt? slot).elim false (TypeExpr.isNamed "string")

section

variable {s s' : Signature} {slot slot' : StringSlot} {t : TypeExpr} {params : List TypeParam}
  {returns : Option TypeExpr} {arrow : Bool}

/-- A call has a place for each parameter, and one for a return type. -/
lemma places_of_call (hlist : s.hasParameterList = true)
    (htype : s.type = .function params returns arrow) :
    s.places = (List.range params.length).map .param ++ returns.toList.map fun _ => .returns := by
  rw [places, hlist, htype]

/-- A call shows the types of its parameters and its return type. -/
lemma typeAt?_of_call (hlist : s.hasParameterList = true)
    (htype : s.type = .function params returns arrow) (slot : StringSlot) :
    s.typeAt? slot =
      match slot with
      | .type => none
      | .param i => params[i]?.map Param.type
      | .returns => returns := by
  rw [typeAt?, hlist, htype]

/-- The places of a call depend on the number of its parameters. -/
lemma places_withType (hlist : s.hasParameterList = true) :
    (s.withType (.function params returns arrow)).places =
      (List.range params.length).map .param ++ returns.toList.map fun _ => .returns :=
  places_of_call (s := s.withType (.function params returns arrow)) hlist rfl

/-- A call with another type shows the parts of this type. -/
lemma typeAt?_withType (hlist : s.hasParameterList = true) (slot : StringSlot) :
    (s.withType (.function params returns arrow)).typeAt? slot =
      match slot with
      | .type => none
      | .param i => params[i]?.map Param.type
      | .returns => returns :=
  typeAt?_of_call (s := s.withType (.function params returns arrow)) hlist rfl slot

/-- A signature shows its parameters or its type as a whole. -/
lemma call_or_whole (s : Signature) :
    (∃ params returns arrow, s.hasParameterList = true ∧ s.type = .function params returns arrow) ∨
      (s.places = [.type] ∧ s.stringSlots = (if s.type.isNamed "string" then [.type] else []) ∧
        ∀ slot, s.typeAt? slot = if slot = .type then some s.type else none) := by
  by_cases hcall : s.hasParameterList = true ∧ s.type.isFunction = true
  · obtain ⟨hlist, hfunction⟩ := hcall
    cases htype : s.type with
    | function params returns arrow => exact Or.inl ⟨params, returns, arrow, hlist, rfl⟩
    | _ => simp [htype, TypeExpr.isFunction] at hfunction
  · right
    unfold places stringSlots typeAt?
    cases hlist : s.hasParameterList with
    | false => exact ⟨rfl, rfl, fun _ => rfl⟩
    | true =>
      cases htype : s.type with
      | function => exact absurd ⟨hlist, by rw [htype]; rfl⟩ hcall
      | _ => exact ⟨rfl, rfl, fun _ => rfl⟩

/-- No place is named twice. -/
lemma nodup_places (s : Signature) : s.places.Nodup := by
  rcases call_or_whole s with ⟨params, returns, arrow, hlist, htype⟩ | ⟨hplaces, -, -⟩
  · rw [places_of_call hlist htype]
    have hparams : ((List.range params.length).map StringSlot.param).Nodup :=
      List.nodup_range.map fun i j h => StringSlot.param.inj h
    refine List.nodup_append.mpr ⟨hparams, ?_, ?_⟩
    · cases returns <;> simp
    · rintro slot hslot slot' hslot' rfl
      obtain ⟨i, -, rfl⟩ := List.mem_map.mp hslot
      obtain ⟨_, -, h⟩ := List.mem_map.mp hslot'
      cases h
  · rw [hplaces]
    exact List.nodup_singleton _

/-- The slots among the parameters are those that show `string`. -/
lemma stringParams_eq_filter (i : ℕ) (ps : List TypeParam) :
    stringParams i ps =
      ((List.range ps.length).filter fun k => (ps[k]?.map Param.type).elim false
        (TypeExpr.isNamed "string")).map (i + ·) := by
  induction ps generalizing i with
  | nil => rfl
  | cons p ps ih =>
    have hshift : ∀ k, i + 1 + k = i + (k + 1) := by
      intro k
      omega
    rw [List.length_cons, List.range_succ_eq_map, List.filter_cons, List.filter_map]
    cases hp : p.type.isNamed "string" with
    | true => simp [stringParams, hp, ih, Function.comp_def, hshift, -String.reduceToList]
    | false => simp [stringParams, hp, ih, Function.comp_def, hshift, -String.reduceToList]

/-- The slots are the places that show `string`, in their order. -/
lemma stringSlots_eq_filter (s : Signature) : s.stringSlots = s.places.filter s.showsString := by
  rcases call_or_whole s with ⟨params, returns, arrow, hlist, htype⟩ | ⟨hplaces, hslots, hat⟩
  · have hslots : s.stringSlots = (stringParams 0 params).map .param ++
        (if returns.elim false (TypeExpr.isNamed "string") then [.returns] else []) := by
      rw [stringSlots, hlist, htype]
    rw [hslots, places_of_call hlist htype, List.filter_append, stringParams_eq_filter, List.filter_map]
    have hparam : s.showsString ∘ StringSlot.param = fun k =>
        (params[k]?.map Param.type).elim false (TypeExpr.isNamed "string") := by
      funext k
      rw [Function.comp_apply, showsString, typeAt?_of_call hlist htype]
    have hreturns : s.showsString .returns = returns.elim false (TypeExpr.isNamed "string") := by
      rw [showsString, typeAt?_of_call hlist htype]
    rw [hparam]
    congr 1
    · simp
    · cases returns with
      | none => rfl
      | some r =>
        rw [Option.toList_some, List.map_singleton, List.filter_cons, hreturns]
        rfl
  · have hwhole : s.showsString .type = s.type.isNamed "string" := by
      rw [showsString, hat]
      rfl
    rw [hplaces, hslots, List.filter_cons, hwhole]
    rfl

/-! ### Filling one place -/

/-- The second signature has the type `t` in a place of the first one and is the same in every other
respect. -/
inductive Fills (t : TypeExpr) : StringSlot → Signature → Signature → Prop
  | type {s : Signature} : Fills t .type s (s.withType t)
  | param {s : Signature} {before behind : List TypeParam} {p : TypeParam}
      {returns : Option TypeExpr} {arrow : Bool} :
      s.type = .function (before ++ p :: behind) returns arrow →
        Fills t (.param before.length) s
          (s.withType (.function (before ++ { p with type := t } :: behind) returns arrow))
  | returns {s : Signature} {params : List TypeParam} {r : TypeExpr} {arrow : Bool} :
      s.type = .function params (some r) arrow →
        Fills t .returns s (s.withType (.function params (some t) arrow))

lemma Fills.name (h : Fills t slot s s') : s'.name = s.name := by
  cases h <;> rfl

/-- A place that a signature has can be filled. -/
lemma fills_withSlot (h : (s.typeAt? slot).isSome) : Fills t slot s (s.withSlot slot t) := by
  rcases call_or_whole s with ⟨params, returns, arrow, hlist, htype⟩ | ⟨-, -, hat⟩
  · rw [typeAt?_of_call hlist htype] at h
    cases slot with
    | type => simp at h
    | param i =>
      obtain ⟨p, hp⟩ : ∃ p, params[i]? = some p := by
        simpa [Option.isSome_iff_exists] using h
      obtain ⟨hi, rfl⟩ := List.getElem?_eq_some_iff.mp hp
      have hsplit : params = params.take i ++ params[i] :: params.drop (i + 1) := by simp
      have hlength : (params.take i).length = i := by simp [hi.le]
      have hmodify : (params.modify i fun p => { p with type := t }) =
          params.take i ++ { params[i] with type := t } :: params.drop (i + 1) :=
        List.modify_eq_take_cons_drop hi
      have hwith : s.withSlot (.param i) t =
          s.withType (.function (params.modify i fun p => { p with type := t }) returns arrow) := by
        unfold withSlot
        rw [htype]
        rfl
      have hfills : Fills t (.param (params.take i).length) s _ :=
        .param (htype.trans (congrArg (TypeExpr.function · returns arrow) hsplit))
      rw [hlength] at hfills
      rwa [hwith, hmodify]
    | returns =>
      obtain ⟨r, rfl⟩ := Option.isSome_iff_exists.mp h
      have hwith : s.withSlot .returns t = s.withType (.function params (some t) arrow) := by
        unfold withSlot
        rw [htype]
        rfl
      rw [hwith]
      exact Fills.returns htype
  · rw [hat] at h
    obtain rfl : slot = .type := by
      by_contra hne
      simp [hne] at h
    exact Fills.type

/-- Filling a place with what is no function keeps the places, and what the others show. -/
lemma Fills.shown (h : Fills t slot s s') (hslot : (s.typeAt? slot).isSome)
    (ht : t.isFunction = false) :
    s'.places = s.places ∧ s'.typeAt? slot = some t ∧
      ∀ slot', slot' ≠ slot → s'.typeAt? slot' = s.typeAt? slot' := by
  -- places other than the type exist only where the parameters are shown
  have hlist : slot ≠ .type → s.hasParameterList = true := by
    intro hne
    rcases call_or_whole s with ⟨_, _, _, hlist, -⟩ | ⟨-, -, hat⟩
    · exact hlist
    · rw [hat, if_neg hne] at hslot
      exact absurd hslot (by simp)
  cases h with
  | type =>
    rcases call_or_whole s with ⟨_, _, _, hlist, htype⟩ | ⟨hplaces, -, hat⟩
    · rw [typeAt?_of_call hlist htype] at hslot
      exact absurd hslot (by simp)
    · rcases call_or_whole (s.withType t) with ⟨_, _, _, -, htype⟩ | ⟨hplaces', -, hat'⟩
      · obtain rfl := htype
        exact absurd ht (by simp [TypeExpr.isFunction])
      · refine ⟨hplaces'.trans hplaces.symm, hat' .type, fun slot' hne => ?_⟩
        rw [hat, hat', if_neg hne, if_neg hne]
  | @param _ before behind p returns arrow htype =>
    have hcall := hlist (by simp)
    refine ⟨?_, ?_, fun slot' hne => ?_⟩
    · rw [places_of_call hcall htype, places_withType hcall]
      simp
    · rw [typeAt?_withType hcall]
      simp
    · rw [typeAt?_of_call hcall htype, typeAt?_withType hcall]
      cases slot' with
      | type => rfl
      | returns => rfl
      | param i =>
        have hi : i ≠ before.length := fun heq => hne (congrArg StringSlot.param heq)
        -- a parameter in front of the filled one, or behind it
        rcases Nat.lt_or_gt_of_ne hi with hlt | hgt
        · simp [List.getElem?_append_left hlt]
        · obtain ⟨k, rfl⟩ : ∃ k, i = before.length + (k + 1) := ⟨i - before.length - 1, by omega⟩
          have hbehind : ∀ q : TypeParam,
              (before ++ q :: behind)[before.length + (k + 1)]? = behind[k]? := by
            intro q
            rw [List.getElem?_append_right (Nat.le_add_right ..), Nat.add_sub_cancel_left,
              List.getElem?_cons_succ]
          simp only [hbehind]
  | returns htype =>
    have hcall := hlist (by simp)
    refine ⟨?_, ?_, fun slot' hne => ?_⟩
    · rw [places_of_call hcall htype, places_withType hcall]
      rfl
    · rw [typeAt?_withType hcall]
    · rw [typeAt?_of_call hcall htype, typeAt?_withType hcall]
      cases slot' with
      | type => rfl
      | returns => exact absurd rfl hne
      | param i => rfl

/-! ### One enumeration -/

/-- No slot is named twice. -/
lemma nodup_stringSlots (s : Signature) : s.stringSlots.Nodup := by
  rw [stringSlots_eq_filter]
  exact (nodup_places s).filter _

/-- Every slot shows `string`. -/
lemma typeAt?_of_mem_stringSlots (h : slot ∈ s.stringSlots) :
    s.typeAt? slot = some (.atom "string") := by
  rw [stringSlots_eq_filter, List.mem_filter, showsString] at h
  cases hat : s.typeAt? slot with
  | none => simp [hat] at h
  | some t =>
    cases t with
    | atom name =>
      obtain rfl : name = "string" := by simpa [hat, TypeExpr.isNamed, -String.reduceToList] using h.2
      rfl
    | _ => simp [hat, TypeExpr.isNamed] at h

/-- A list that is filtered anew keeps what it kept, but for the first item. -/
lemma filter_eq_of_first {α : Type} {p q : α → Bool} {l as : List α} {a : α} (hl : l.Nodup)
    (h : l.filter p = a :: as) (ha : q a = false) (hq : ∀ b, b ≠ a → q b = p b) :
    l.filter q = as := by
  have hpa : p a = true := (List.mem_filter.mp (h ▸ List.mem_cons_self : a ∈ l.filter p)).2
  have hboth : ∀ b ∈ l, q b = (q b && p b) := by
    intro b _
    by_cases hb : b = a
    · rw [hb, ha, Bool.false_and]
    · rw [hq b hb, Bool.and_self]
  obtain ⟨hnot, -⟩ := List.nodup_cons.mp (h ▸ hl.filter p)
  have hrest : ∀ b ∈ as, q b = true := by
    intro b hb
    have hne : b ≠ a := fun heq => hnot (heq ▸ hb)
    rw [hq b hne]
    exact (List.mem_filter.mp (h ▸ List.mem_cons_of_mem a hb : b ∈ l.filter p)).2
  rw [List.filter_congr hboth, ← List.filter_filter, h, List.filter_cons_of_neg (by simp [ha]),
    List.filter_eq_self.mpr hrest]

/-- Once the first slot holds another type, the slots are those behind it. -/
lemma stringSlots_of_fills {others : List StringSlot} (h : s.stringSlots = slot :: others)
    (hfills : Fills t slot s s') (ht : t.isFunction = false) (hname : t.isNamed "string" = false) :
    s'.stringSlots = others := by
  have hat := typeAt?_of_mem_stringSlots (h ▸ List.mem_cons_self : slot ∈ s.stringSlots)
  obtain ⟨hplaces, hhere, helse⟩ := hfills.shown (by rw [hat]; rfl) ht
  rw [stringSlots_eq_filter] at h ⊢
  rw [hplaces]
  refine filter_eq_of_first (nodup_places s) h ?_ fun slot' hne => ?_
  · rw [showsString, hhere]
    exact hname
  · rw [showsString, showsString, helse slot' hne]

variable {values : List Text} {others : List StringSlot}

/-- Without a slot an enumeration changes nothing. -/
lemma applyEnum_of_no_slot (h : s.stringSlots = []) (values : List Text) :
    s.applyEnum values = pure s := by
  rw [applyEnum, h]
  split_ifs <;> rfl

/-- The values take the first slot, with a warning if there are others. -/
lemma applyEnum_of_slot (hvalues : values ≠ []) (h : s.stringSlots = slot :: others) :
    s.applyEnum values =
      ⟨s.withSlot slot (enumUnion values),
        if others = [] then [] else [.severalStringTypes s.name]⟩ := by
  rw [applyEnum, if_neg (by simpa using hvalues), h]
  cases others <;> rfl

/-- An enumeration fills the first slot. -/
lemma fills_applyEnum (hvalues : values ≠ []) (h : s.stringSlots = slot :: others) :
    Fills (enumUnion values) slot s (s.applyEnum values).value := by
  have hat := typeAt?_of_mem_stringSlots (h ▸ List.mem_cons_self : slot ∈ s.stringSlots)
  rw [applyEnum_of_slot hvalues h]
  exact fills_withSlot (by rw [hat]; rfl)

/-! ### Several enumerations -/

/-- Places are filled one after another. -/
inductive FillsInTurn : List (StringSlot × TypeExpr) → Signature → Signature → Prop
  | nil {s : Signature} : FillsInTurn [] s s
  | cons {slot : StringSlot} {t : TypeExpr} {rest : List (StringSlot × TypeExpr)}
      {s s₁ s' : Signature} : Fills t slot s s₁ → FillsInTurn rest s₁ s' →
        FillsInTurn ((slot, t) :: rest) s s'

/-- A signature with several enumerations in its first slots, one after another.  Each of these slots
holds the enumeration of its turn, every other place shows what it showed, and nothing else is changed.
There is a warning for each enumeration that had a choice of slots. -/
structure FilledBy (vss : List (List Text)) (s : Signature) (r : Logged Signature) : Prop where
  inTurn : FillsInTurn (s.stringSlots.zip (vss.map enumUnion)) s r.value
  slots : r.value.stringSlots = s.stringSlots.drop vss.length
  filled : ∀ (j : ℕ) slot values, s.stringSlots[j]? = some slot → vss[j]? = some values →
    r.value.typeAt? slot = some (enumUnion values)
  kept : ∀ slot, slot ∉ s.stringSlots.take vss.length → r.value.typeAt? slot = s.typeAt? slot
  warnings : r.warnings =
    List.replicate (min vss.length (s.stringSlots.length - 1)) (.severalStringTypes s.name)

/-- Without a slot several enumerations change nothing. -/
lemma filledBy_of_no_slot (h : s.stringSlots = []) (vss : List (List Text)) :
    FilledBy vss s (vss.foldlM applyEnum s) := by
  have hsame : vss.foldlM applyEnum s = pure s := by
    induction vss with
    | nil => rfl
    | cons values vss ih => rw [List.foldlM_cons, applyEnum_of_no_slot h, pure_bind, ih]
  rw [hsame]
  refine ⟨?_, ?_, ?_, fun slot _ => rfl, ?_⟩
  · rw [h]
    exact FillsInTurn.nil
  · rw [Logged.value_pure, h, List.drop_nil]
  · intro j slot values hslot
    rw [h] at hslot
    simp at hslot
  · simp [h]

/-- Several enumerations take the first slots in their order. -/
lemma filledBy_foldlM {vss : List (List Text)} (hvss : ∀ values ∈ vss, values ≠ []) :
    FilledBy vss s (vss.foldlM applyEnum s) := by
  induction vss generalizing s with
  | nil => exact ⟨by simp [FillsInTurn.nil], rfl, by simp, fun _ _ => rfl, by simp⟩
  | cons values vss ih =>
    obtain ⟨hvalues, hrest⟩ := List.forall_mem_cons.mp hvss
    cases hslots : s.stringSlots with
    | nil => exact filledBy_of_no_slot hslots _
    | cons slot others =>
      have hfills := fills_applyEnum hvalues hslots
      have hothers := stringSlots_of_fills hslots hfills rfl rfl
      have hat := typeAt?_of_mem_stringSlots (hslots ▸ List.mem_cons_self : slot ∈ s.stringSlots)
      obtain ⟨-, hhere, helse⟩ := hfills.shown (by rw [hat]; rfl) rfl
      obtain ⟨hnot, -⟩ := List.nodup_cons.mp (hslots ▸ nodup_stringSlots s)
      obtain ⟨hturn, hdrop, hfilled, hkept, hwarnings⟩ := ih (s := (s.applyEnum values).value) hrest
      rw [hothers] at hturn hdrop hfilled hkept hwarnings
      have hvalue : ((values :: vss).foldlM applyEnum s).value =
          (vss.foldlM applyEnum (s.applyEnum values).value).value := by
        rw [List.foldlM_cons, Logged.value_bind]
      refine ⟨?_, ?_, ?_, ?_, ?_⟩
      · rw [hvalue, hslots]
        exact FillsInTurn.cons hfills hturn
      · rw [hvalue, hslots, hdrop]
        rfl
      · rw [hvalue, hslots]
        intro j slot' values' hslot' hvalues'
        cases j with
        | zero =>
          obtain rfl : slot = slot' := by simpa using hslot'
          obtain rfl : values = values' := by simpa using hvalues'
          -- the later enumerations leave the first slot alone
          rw [hkept slot fun hmem => hnot (List.mem_of_mem_take hmem), hhere]
        | succ j => exact hfilled j slot' values' (by simpa using hslot') (by simpa using hvalues')
      · rw [hvalue, hslots]
        intro slot' hslot'
        rw [List.length_cons, List.take_succ_cons, List.mem_cons, not_or] at hslot'
        rw [hkept slot' hslot'.2, helse slot' hslot'.1]
      · rw [List.foldlM_cons, Logged.warnings_bind, hwarnings, hfills.name,
          applyEnum_of_slot hvalues hslots, hslots]
        cases others with
        | nil => simp
        | cons slot' others =>
          have hcount : min (vss.length + 1) (others.length + 1) = min vss.length others.length + 1 := by
            omega
          simp [hcount, List.replicate_succ]

/-- The slots are the places that show `string`, in the order of the declaration.  An enumeration takes
the first one and leaves everything else as it is, and several of them take the first slots, each slot
once. -/
theorem applyEnum_fills (s : Signature) :
    (s.stringSlots = s.places.filter s.showsString ∧ s.stringSlots.Nodup) ∧
    (∀ values : List Text, values ≠ [] →
      (s.stringSlots = [] → s.applyEnum values = pure s) ∧
      ∀ slot others, s.stringSlots = slot :: others →
        s.typeAt? slot = some (.atom "string") ∧
          Fills (.union (values.map fun v => .literal (Json.printedText true v))) slot s
            (s.applyEnum values).value ∧
          (s.applyEnum values).value.stringSlots = others ∧
          (s.applyEnum values).warnings =
            if others = [] then [] else [.severalStringTypes s.name]) ∧
    ∀ vss : List (List Text), (∀ values ∈ vss, values ≠ []) →
      FilledBy vss s (vss.foldlM applyEnum s) := by
  refine ⟨⟨stringSlots_eq_filter s, nodup_stringSlots s⟩,
    fun values hvalues => ⟨fun h => applyEnum_of_no_slot h values, ?_⟩,
    fun vss hvss => filledBy_foldlM hvss⟩
  intro slot others h
  have hfills := fills_applyEnum hvalues h
  refine ⟨typeAt?_of_mem_stringSlots (h ▸ List.mem_cons_self), hfills,
    stringSlots_of_fills h hfills rfl rfl, ?_⟩
  rw [applyEnum_of_slot hvalues h]

/-- Two enumerations in `f(a: string, b: number, c: string): string` take both parameters, with a choice
of slots each time, and leave the return type. -/
theorem applyEnum_fills_twice :
    let s : Signature :=
      { name := "f"
        type := .function [⟨some "a", .atom "string", false⟩, ⟨some "b", .atom "number", false⟩,
          ⟨some "c", .atom "string", false⟩] (some (.atom "string")) false
        form := some .method }
    let vss : List (List Text) := [["x", "y"], ["z"]]
    s.stringSlots = [.param 0, .param 2, .returns] ∧
      (vss.foldlM applyEnum s).value.stringSlots = [.returns] ∧
      (vss.foldlM applyEnum s).value.typeAt? (.param 2) = some (enumUnion ["z"]) ∧
      (vss.foldlM applyEnum s).warnings = [.severalStringTypes "f", .severalStringTypes "f"] ∧
      Fills (enumUnion ["z"]) (.param 0) s (s.applyEnum ["z"]).value := by
  intro s vss
  have hslots : s.stringSlots = [.param 0, .param 2, .returns] := by decide
  obtain ⟨-, hone, hseveral⟩ := applyEnum_fills s
  have hall := hseveral vss (by decide)
  have hrest := hall.slots
  rw [hslots] at hrest
  have hwarnings := hall.warnings
  rw [hslots] at hwarnings
  have hfilled := hall.filled 1 (.param 2) ["z"] (by rw [hslots]; rfl) rfl
  obtain ⟨-, hfirst⟩ := hone ["z"] (by decide)
  obtain ⟨-, hfills, -, -⟩ := hfirst (.param 0) _ hslots
  exact ⟨hslots, hrest, hfilled, hwarnings, hfills⟩

end

end Signature

end Ambient
