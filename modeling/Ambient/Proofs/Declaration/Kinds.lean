import Mathlib
import Ambient.Proofs.Declaration.Calls
import Ambient.Proofs.TypeExpr.FunctionType

/-!
# Which members are functions

A symbol sorts its members by the text of their types: what begins with `fn(` goes to the functions
and everything else to the properties.  The rules look at the type that the text spells.  The two
agree on a member exactly if its text shows its kind (`ShowsKind`, `kinds_of_symbols`).  A function
type whose text begins otherwise, with white space behind `fn`, with parentheses around it or in the
arrow notation, is a method among the properties; what begins like a function type and goes on as
another type is a property among the functions.
-/

namespace Ambient

namespace Signature

variable {c : Circumstances} {s : Signature} {w : Text}

/-! ### The form of a member -/

/-- A text that spells a function type to its end if it begins with `fn(`, and otherwise declares a
property or spells a type that is no function. -/
def ShowsKind (w : Text) : Prop :=
  if Text.startsWith "fn(" w.trim then TypeExpr.IsFunctionText w
  else (∀ s, ofDeclaration? w = some s → s.form = some .property) ∧
    (ofDeclaration? w = none → ¬ TypeExpr.IsFunctionText w)

/-- What begins like a function type is no declaration. -/
lemma ofDeclaration?_of_startsWith (h : Text.startsWith "fn(" w.trim = true) :
    ofDeclaration? w = none := by
  obtain ⟨rest, hrest⟩ := Option.isSome_iff_exists.mp h
  have htrim : w.trim = "fn(" ++ rest := Text.after?_eq_some_iff.mp hrest
  have hhead : declarationHead? w.trim =
      some (false, ("fn" : Text), Separator.parenthesis, rest) := by
    have hfn : Token.IsIdentifier ("fn" : Text) := by decide
    rw [htrim]
    exact declarationHead?_identifier .parenthesis rest hfn false
  unfold ofDeclaration?
  rw [hhead]
  rfl

/-- A declaration has a form. -/
lemma form_of_declaration (h : ofDeclaration? w = some s) : s.form.isSome = true := by
  obtain ⟨name, v, isStatic, rfl | ⟨call, -, rfl⟩⟩ := ofDeclaration?_spec h <;> rfl

/-- A declaration keeps its form under the rules. -/
lemma form_translate_of_declaration (h : ofDeclaration? w = some s) :
    (translate c w).form = s.form := by
  obtain ⟨form, hform⟩ := Option.isSome_iff_exists.mp (form_of_declaration h)
  rw [translate, ofSource_of_declaration h, applyAll_eq_onePass, onePass]
  split
  · simp [callForm, hform]
  · simp [hform]

/-- A type that is no declaration is a method if it is a function, and a property otherwise. -/
lemma form_translate_of_type (hc : c.mayBeConstructor = false) (h : ofDeclaration? w = none) :
    (translate c w).form = some (if (TypeExpr.parse w).isFunction then .method else .property) := by
  have hsource : ofSource c w = { name := c.name, type := .parse w, isStatic := c.isStatic } := by
    rw [ofSource, h]
  rw [translate, applyAll_eq_onePass, hsource]
  cases TypeExpr.parse w with
  | function params returns arrow =>
    simp only [onePass, callForm, hc, TypeExpr.isFunction]
    rfl
  | _ => rfl

/-- A text that begins with `fn(` becomes a method exactly if it shows its kind, and any other becomes
a property exactly if it does. -/
lemma form_translate_iff (hc : c.mayBeConstructor = false) :
    (translate c w).form = some (if Text.startsWith "fn(" w.trim then .method else .property) ↔
      ShowsKind w := by
  unfold ShowsKind
  split_ifs with hstart
  · rw [form_translate_of_type hc (ofDeclaration?_of_startsWith hstart),
      ← TypeExpr.isFunction_parse_iff]
    cases (TypeExpr.parse w).isFunction <;> simp
  · cases hdeclared : ofDeclaration? w with
    | some s => simp [form_translate_of_declaration hdeclared]
    | none =>
      rw [form_translate_of_type hc hdeclared, ← TypeExpr.isFunction_parse_iff]
      cases (TypeExpr.parse w).isFunction <;> simp

end Signature

namespace Symbol

/-! ### Other members in the same places -/

lemma keys_replaced (t : Table Member) (ms : List Member) :
    Table.keys (withMembers.replaced t ms) = Table.keys t := by
  induction ms generalizing t with
  | nil => cases t <;> rfl
  | cons m ms ih =>
    cases t with
    | nil => rfl
    | cons entry t => exact congrArg (entry.1 :: ·) (ih t)

/-- Replacing members leaves the keys of the functions. -/
lemma hasKey_withMembers_functions (s : Symbol) (ms : List Member) (key : Text) :
    Table.hasKey (s.withMembers ms).functions key = Table.hasKey s.functions key := by
  rw [Bool.eq_iff_iff, Table.hasKey_iff, Table.hasKey_iff, withMembers, keys_replaced]

end Symbol

namespace Document

variable {settings : Settings} {document overlay : Table Json} {given : Option Json}
  {all : Table Symbol} {name : Text} {data : Table Json} {s s' : Symbol}

/-! ### Members in their tables -/

/-- The functions of a symbol are written as functions, and its properties are not. -/
structure Sorted (s : Symbol) : Prop where
  functions : ∀ m ∈ s.functions, m.2.isFunction = true
  properties : ∀ m ∈ s.properties, m.2.isFunction = false

/-- Members of the overlay are sorted in with the others. -/
lemma sorted_attachAll (hs : attachAll settings s data = .ok s') (h : Sorted s) : Sorted s' := by
  obtain ⟨ms, -, rfl⟩ := attachAll_eq_ok.mp hs
  have hkeyed : ∀ p : Member → Bool, ∀ m ∈ Symbol.keyed p ms, p m.2 = true := by
    intro p m hm
    obtain ⟨m', hm', rfl⟩ := List.mem_map.mp hm
    exact (List.mem_filter.mp hm').2
  rw [Symbol.foldl_addMember]
  constructor
  · intro m hm
    rcases Table.mem_of_mem_insertAll hm with hm | hm
    · exact h.functions m hm
    · exact hkeyed _ m hm
  · intro m hm
    rcases Table.mem_of_mem_insertAll hm with hm | hm
    · exact h.properties m hm
    · have hno := hkeyed _ m hm
      simpa [Symbol.isCalled] using hno

/-- A symbol that is made of its object is sorted. -/
lemma sorted_symbol (hs : symbol settings name data = .ok s) : Sorted s := by
  obtain ⟨e, ms, he, hms, rfl⟩ := symbol_eq_ok.mp hs
  have hempty : Sorted { toEntry := e, kind := kindOfName name } := ⟨by simp, by simp⟩
  have hattached := sorted_attachAll (attachAll_eq_ok.mpr ⟨ms, hms, rfl⟩) hempty
  constructor
  · rw [translateOwn_functions]
    exact hattached.functions
  · rw [translateOwn_properties]
    exact hattached.properties

/-- The signature that the rules give a member of `owner`. -/
def ruled (settings : Settings) (owner : Text) (m : Member) : Signature :=
  Signature.translate { settings.circumstances m.name owner with isStatic := m.isStatic } m.sourceType

/-- The rules give a member the form of its kind just if its type shows this kind. -/
lemma form_ruled_iff {owner : Text} {m : Member} :
    (ruled settings owner m).form = some (if m.isFunction then .method else .property) ↔
      Signature.ShowsKind m.sourceType :=
  Signature.form_translate_iff rfl

/-- Every translated member has the signature that the rules give it. -/
lemma signature_of_mem_translated {owner : Text} {t : Table Member} {m : Text × Member}
    (hm : m ∈ translated settings owner t) : m.2.signature = some (ruled settings owner m.2) := by
  obtain ⟨m', -, rfl⟩ := List.mem_map.mp hm
  rfl

lemma sorted_finish (h : Sorted s) : Sorted (finish settings s) :=
  ⟨List.forall_mem_map.mpr h.functions, List.forall_mem_map.mpr h.properties⟩

/-- Every symbol of a document is sorted. -/
lemma sorted_symbols (h : (Document.symbols settings document given).Returns all) :
    ∀ e ∈ all, Sorted e.2 :=
  forall_symbols (P := fun e => Sorted e.2) (fun _ _ _ _ hs => sorted_symbol hs)
    (fun _ _ _ _ hs' hsorted => sorted_attachAll hs' hsorted)
    (fun _ _ hsorted => sorted_finish hsorted) h

/-- The members of a document's symbols have the signatures that the rules give them. -/
lemma signature_of_mem_symbols (h : (Document.symbols settings document given).Returns all) :
    ∀ e ∈ all, ∀ m ∈ e.2.keyedMembers, m.2.signature = some (ruled settings e.2.name m.2) := by
  obtain ⟨described, overlay, attached, -, -, -, rfl⟩ := returns_symbols.mp h
  refine List.forall_mem_map.mpr fun e _ m hm => ?_
  rcases List.mem_append.mp hm with hm | hm
  · exact signature_of_mem_translated hm
  · exact signature_of_mem_translated hm

end Document

namespace Declaration

variable {settings : Settings} {document : Table Json} {given : Option Json} {all : Table Symbol}
  {e : Text × Symbol} {d : Declaration} {s' : Symbol}

/-! ### The table and the form of a declared member -/

/-- A declared member is one of the functions of the symbol exactly if its key is the key of one. -/
lemma declares_of_mem_members (he : Document.Completed document e) (hsorted : Document.Sorted e.2)
    (h : (ofSymbol settings e.2).value = (.ok d, s')) {m : Text × DeclaredMember}
    (hm : m ∈ d.members) :
    ∃ member s, (m.1, member) ∈ e.2.keyedMembers ∧ Declares settings member s m.2 ∧
      Table.hasKey s'.functions m.1 = member.isFunction := by
  obtain ⟨header, ms, text, -, hms, rfl, -, rfl⟩ := ofSymbol_eq_ok.mp h
  obtain ⟨ms₁, ms₂, rfl, hms₁, hms₂⟩ := describedMembers_append hms
  have hsignatures := List.forall_mem_append.mp he.members
  have hmembers : m ∈ Table.insertAll (Table.ofPairs (ms₁.filterMap DescribedMember.declared?))
      (ms₂.filterMap DescribedMember.declared?) := by
    rw [Table.ofPairs_eq_insertAll, ← Table.insertAll_append, ← List.filterMap_append]
    exact hm
  have hkeys : Table.keys (ms₂.filterMap DescribedMember.declared?) = Table.keys e.2.functions := by
    refine Table.keys_eq_of_forall₂ (fun _ _ hm => hm.1) (forall₂_declared hms₂ fun m hm => ?_)
    obtain ⟨s, hs, -⟩ := hsignatures.2 m hm
    exact Option.isSome_of_eq_some hs
  -- the functions come behind the properties, so that a key of both is declared as a function
  by_cases hfunction : m.1 ∈ Table.keys e.2.functions
  · have hlast := Table.mem_pairs_of_mem_insertAll (Table.nodup_keys_ofPairs _) hmembers
      (hkeys ▸ hfunction)
    obtain ⟨member, s, hmem, hdeclares⟩ := exists_declares hms₂ hsignatures.2 hlast
    refine ⟨member, s, List.mem_append_right _ hmem, hdeclares, ?_⟩
    rw [Symbol.hasKey_withMembers_functions, hsorted.functions _ hmem]
    exact Table.hasKey_iff.mpr hfunction
  · have hfirst : m ∈ ms₁.filterMap DescribedMember.declared? := by
      rcases Table.mem_of_mem_insertAll hmembers with hm | hm
      · exact (Table.mem_of_mem_insertAll hm).resolve_left List.not_mem_nil
      · exact absurd (hkeys ▸ List.mem_map_of_mem hm) hfunction
    obtain ⟨member, s, hmem, hdeclares⟩ := exists_declares hms₁ hsignatures.1 hfirst
    refine ⟨member, s, List.mem_append_left _ hmem, hdeclares, ?_⟩
    rw [Symbol.hasKey_withMembers_functions, hsorted.properties _ hmem]
    exact Bool.eq_false_iff.mpr (mt Table.hasKey_iff.mp hfunction)

/-- A function of a document's symbol is a method, and a property has the form of one, exactly if the
text of the type shows its kind.  A class lays out a declared member by the table that the member
stands in; a namespace and an alias go by the form, and so they take it for a function if it is a
method and its documentation does not begin with the marker of a property. -/
theorem kinds_of_symbols (h : (Document.symbols settings document given).Returns all)
    (he : e ∈ all) :
    (∀ m ∈ e.2.functions, m.2.isFunction = true ∧
      m.2.signature = some (Document.ruled settings e.2.name m.2) ∧
      ((Document.ruled settings e.2.name m.2).form = some .method ↔
        Signature.ShowsKind m.2.sourceType)) ∧
    (∀ m ∈ e.2.properties, m.2.isFunction = false ∧
      m.2.signature = some (Document.ruled settings e.2.name m.2) ∧
      ((Document.ruled settings e.2.name m.2).form = some .property ↔
        Signature.ShowsKind m.2.sourceType)) ∧
    ∀ d s', (ofSymbol settings e.2).value = (.ok d, s') → ∀ m ∈ d.members,
      ∃ member, (m.1, member) ∈ e.2.keyedMembers ∧
        Table.hasKey s'.functions m.1 = member.isFunction ∧
        (m.2.isFunction = true ↔ (Document.ruled settings e.2.name member).form = some .method ∧
          ¬ Description.Marked settings member.shortDoc) := by
  have hsorted := Document.sorted_symbols h e he
  have hsignatures := Document.signature_of_mem_symbols h e he
  refine ⟨fun m hm => ?_, fun m hm => ?_, fun d s' hd m hm => ?_⟩
  · have hfunction := hsorted.functions m hm
    refine ⟨hfunction, hsignatures m (List.mem_append_right _ hm), ?_⟩
    rw [← Document.form_ruled_iff, if_pos hfunction]
  · have hproperty := hsorted.properties m hm
    refine ⟨hproperty, hsignatures m (List.mem_append_left _ hm), ?_⟩
    rw [← Document.form_ruled_iff, if_neg (Bool.eq_false_iff.mp hproperty)]
  · obtain ⟨member, s, hmember, hdeclares, htable⟩ :=
      declares_of_mem_members (Document.completed_symbols h e he) hsorted hd hm
    obtain rfl : Document.ruled settings e.2.name member = s :=
      Option.some.inj ((hsignatures _ hmember).symm.trans hdeclares.signature)
    exact ⟨member, hmember, htable, hdeclares.isFunction_iff⟩

/-- A class with a member whose type is a function, with a space in front of the parenthesis. -/
def spacedBox : Table Json :=
  [("Box", .object [("fill", .object [("!type", .text "fn (x: number)")])])]

/-- The document has one symbol, which is declared with a member.  Its only property is a method. -/
lemma described_spacedBox :
    ∃ e d m m', (Document.symbols {} spacedBox none).Returns [e] ∧
      (ofSymbol {} e.2).value.1.toOption = some d ∧ d.members.head? = some m ∧
      e.2.properties = [m'] ∧ (Document.ruled {} e.2.name m'.2).form = some .method := by
  have hparts : ((Document.symbols {} spacedBox none).run.value.toOption.map fun all =>
      all.map fun e => (((ofSymbol {} e.2).value.1.toOption.bind (·.members.head?)).isSome,
        e.2.properties.map fun m => (Document.ruled {} e.2.name m.2).form)) =
      some [(true, [some SignatureForm.method])] := by
    decide +kernel
  obtain ⟨all, hall, hparts⟩ := Option.map_eq_some_iff.mp hparts
  obtain ⟨e, rfl, hentry⟩ := List.map_eq_singleton_iff.mp hparts
  obtain ⟨hmember, hforms⟩ := Prod.mk.inj hentry
  obtain ⟨m, hm⟩ := Option.isSome_iff_exists.mp hmember
  obtain ⟨d, hd, hm⟩ := Option.bind_eq_some_iff.mp hm
  obtain ⟨m', hproperties, hform⟩ := List.map_eq_singleton_iff.mp hforms
  exact ⟨e, d, m, m', Run.returns_iff_toOption.mpr hall, hd, hm, hproperties, hform⟩

/-- A class with a member whose type has a space in front of the parenthesis. -/
theorem kinds_of_symbols_spacedBox :
    ∃ all e d s' m member, (Document.symbols {} spacedBox none).Returns all ∧ e ∈ all ∧
      (∀ m ∈ e.2.properties, (Document.ruled {} e.2.name m.2).form = some .property ↔
        Signature.ShowsKind m.2.sourceType) ∧
      (ofSymbol {} e.2).value = (.ok d, s') ∧ m ∈ d.members ∧ (m.1, member) ∈ e.2.keyedMembers ∧
      Table.hasKey s'.functions m.1 = member.isFunction ∧
      (m.2.isFunction = true ↔ (Document.ruled {} e.2.name member).form = some .method ∧
        ¬ Description.Marked {} member.shortDoc) := by
  obtain ⟨e, d, m, m', hreturns, hd, hm, -, -⟩ := described_spacedBox
  have hvalue : (ofSymbol {} e.2).value = (.ok d, (ofSymbol {} e.2).value.2) :=
    Except.eq_of_toOption_fst hd
  obtain ⟨-, hproperties, hdeclared⟩ := kinds_of_symbols hreturns (List.mem_singleton_self e)
  obtain ⟨member, hmember, htable, hform⟩ := hdeclared d _ hvalue m (List.mem_of_head? hm)
  exact ⟨[e], e, d, _, m, member, hreturns, List.mem_singleton_self e,
    fun m hm => (hproperties m hm).2.2, hvalue, List.mem_of_head? hm, hmember, htable, hform⟩

/-- The member stands among the properties, and it is a method. -/
theorem kinds_spacedBox :
    ∃ all e m, (Document.symbols {} spacedBox none).Returns all ∧ e ∈ all ∧ m ∈ e.2.properties ∧
      (Document.ruled {} e.2.name m.2).form = some .method := by
  obtain ⟨e, d, m, m', hreturns, -, -, hproperties, hform⟩ := described_spacedBox
  exact ⟨[e], e, m', hreturns, List.mem_singleton_self e, by simp [hproperties], hform⟩

end Declaration

end Ambient
