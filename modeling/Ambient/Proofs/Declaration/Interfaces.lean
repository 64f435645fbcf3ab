import Mathlib
import Ambient.Proofs.Declaration.Emission
import Ambient.Proofs.Description.Revision
import Ambient.Proofs.Table
import Ambient.Proofs.Text.Lines

/-!
# Interfaces of a declaration

The interface of a sample is referred to in the signature of the member that it documents and
defined in the namespace of the symbol.  Both happen apart from each other: the description of the
member puts the reference in, and the layout of the declaration decides on the namespace, for each
kind of symbol in its own way.  All the same every reference that a description puts in has its
definition (`interfacesDefined`).
-/

namespace Ambient

open Text (indent joinWith)

namespace Declaration

variable {settings : Settings} {s s' : Symbol} {d : Declaration} {ms : List DescribedMember}

/-! ### The namespace -/

/-- The text of the namespace `name` that ends in the given interfaces. -/
def interfaceBlock (name lead : Text) (interfaces : List Interface) : Text :=
  "declare namespace " ++ name ++ [' ', '{', '\n'] ++ lead
    ++ joinWith "\n\n" (interfaces.map fun i => indent "\t" i.shown) ++ ['\n', '}']

/-- Nothing, or text that an empty line follows. -/
def IsLead (t : Text) : Prop :=
  t = [] ∨ ∃ u, t = u ++ "\n\n"

/-- A block with anything in it is its opening, its indented body and a closing brace. -/
lemma block_eq {opening : Text} {body : List Text} (h : body ≠ []) :
    block opening body =
      opening ++ [' ', '{', '\n'] ++ indent "\t" (joinWith "\n\n" body) ++ ['\n', '}'] := by
  have hempty : body.isEmpty = false := by simpa using h
  rw [block, hempty]
  simp

/-- An interface ends in its closing brace. -/
lemma shown_eq_append (i : Interface) : ∃ u c, i.shown = u ++ [c] ∧ isLineBreak c = false :=
  ⟨_, '}', Points.shown_append .., by decide⟩

/-- Interfaces are indented one by one. -/
lemma indent_shown (is : List Interface) :
    indent "\t" (joinWith "\n\n" (is.map Interface.shown)) =
      joinWith "\n\n" (is.map fun i => indent "\t" i.shown) := by
  rw [Text.indent_joinWith, List.map_map]
  · rfl
  · intro t ht
    obtain ⟨i, -, rfl⟩ := List.mem_map.mp ht
    exact shown_eq_append i

/-- Interfaces behind other parts of a block are indented for themselves. -/
lemma indent_append_shown (parts : List Text) {is : List Interface} (h : is ≠ []) :
    ∃ lead, IsLead lead ∧
      indent "\t" (joinWith "\n\n" (parts ++ is.map Interface.shown)) =
        lead ++ joinWith "\n\n" (is.map fun i => indent "\t" i.shown) := by
  have htexts : is.map Interface.shown ≠ [] := by simpa using h
  by_cases hparts : parts = []
  · refine ⟨[], Or.inl rfl, ?_⟩
    rw [hparts, List.nil_append, indent_shown, List.nil_append]
  · have hne : joinWith "\n\n" (is.map Interface.shown) ≠ [] := by
      refine Text.joinWith_ne_nil htexts fun t ht => ?_
      obtain ⟨i, -, rfl⟩ := List.mem_map.mp ht
      obtain ⟨u, c, hshown, -⟩ := shown_eq_append i
      simp [hshown]
    have hindent : indent "\t" (joinWith "\n\n" parts ++ "\n\n"
        ++ joinWith "\n\n" (is.map Interface.shown)) = _ := Text.indent_append _ hne
    rw [← Text.joinWith_append hparts htexts, indent_shown] at hindent
    exact ⟨_, Or.inr ⟨_, rfl⟩, hindent⟩

/-- The namespace of a declaration ends in its interfaces. -/
lemma namespaceText_eq (withMembers : Bool) (h : d.interfaces ≠ []) :
    ∃ lead, IsLead lead ∧ d.namespaceText withMembers = interfaceBlock d.name lead d.interfaces := by
  have htexts : d.interfaces.map Interface.shown ≠ [] := by simpa using h
  unfold namespaceText
  extract_lets parts
  have hne : parts ++ d.interfaces.map Interface.shown ≠ [] :=
    List.append_ne_nil_of_right_ne_nil parts htexts
  obtain ⟨lead, hlead, hindent⟩ := indent_append_shown parts h
  refine ⟨lead, hlead, ?_⟩
  rw [block_eq hne, hindent]
  unfold interfaceBlock
  exact congrArg (· ++ ['\n', '}']) (List.append_assoc _ lead _).symm

/-! ### The text -/

/-- The word for a kind in the header of its declaration. -/
def headWord : SymbolKind → Text
  | .classKind => "class"
  | .varKind => "var"
  | .functionKind => "function"
  | .namespaceKind => "class"

/-- A text that begins with the header of a declaration of some kind, behind its comment. -/
def IsHeaded (comment : Text) (kind : SymbolKind) (t : Text) : Prop :=
  ∃ rest, t = Comment.before comment ("declare " ++ headWord kind ++ ' ' :: rest)

/-- A block is headed by its opening behind the comment. -/
lemma isHeaded_block {comment opening : Text} {kind : SymbolKind} {body : List Text} :
    IsHeaded comment kind
      (Comment.before comment (block ("declare " ++ headWord kind ++ ' ' :: opening) body)) := by
  obtain ⟨inner, hinner⟩ : ∃ inner, block ("declare " ++ headWord kind ++ ' ' :: opening) body =
      ("declare " ++ headWord kind ++ ' ' :: opening) ++ ' ' :: '{' :: inner := ⟨_, rfl⟩
  refine ⟨opening ++ ' ' :: '{' :: inner, ?_⟩
  rw [hinner, List.append_assoc, List.cons_append]

lemma isHeaded_varText (d : Declaration) : IsHeaded d.comment .varKind d.varText := by
  unfold varText
  split
  · next sig _ =>
    split_ifs
    · exact ⟨sig.renderAfter [], rfl⟩
    · exact isHeaded_block
  · exact isHeaded_block

lemma isHeaded_classText (before constructor behind : List Text) :
    IsHeaded d.comment .classKind (d.classText before constructor behind) :=
  isHeaded_block

/-- With interfaces, a declaration of any kind is its header and a namespace behind it. -/
lemma textOf_eq {text : Text} (h : d.interfaces ≠ []) (ht : (textOf settings s d).Returns text) :
    ∃ main withMembers, IsHeaded d.comment d.kind main ∧
      text = main ++ "\n\n" ++ d.namespaceText withMembers := by
  have hempty : d.interfaces.isEmpty = false := by simpa using h
  have hwith : ∀ t, d.withInterfaces t = t ++ "\n\n" ++ d.namespaceText false := by
    intro t
    rw [withInterfaces, hempty]
    rfl
  unfold textOf at ht
  split at ht
  · next hkind =>
    rw [Run.returns_mk] at ht
    unfold functionText at ht
    split at ht
    · cases ht
    · next sig _ =>
      simp only [hempty, Bool.and_false, Bool.false_eq_true, if_false, Except.ok.injEq] at ht
      exact ⟨_, true, hkind ▸ ⟨sig.renderAfter [], rfl⟩, ht.symm⟩
  · next hkind =>
    rw [Run.returns_pure, hwith] at ht
    exact ⟨_, false, hkind ▸ isHeaded_varText d, ht.symm⟩
  · next hkind =>
    obtain ⟨constructor, -, ht⟩ := Run.returns_bind.mp ht
    rw [Run.returns_pure, hwith] at ht
    exact ⟨_, false, hkind ▸ isHeaded_classText .., ht.symm⟩
  · next hkind =>
    obtain ⟨constructor, -, ht⟩ := Run.returns_bind.mp ht
    rw [Run.returns_pure] at ht
    exact ⟨_, true, hkind ▸ isHeaded_classText .., ht.symm⟩

/-! ### References -/

/-- A name behind the name of an owner is no keyword. -/
lemma qualified_ne_void (owner name : Text) : owner ++ "." ++ name ≠ "void" := by
  intro h
  have hpoint : '.' ∈ owner ++ "." ++ name := by simp
  rw [h] at hpoint
  exact absurd hpoint (by decide)

/-- A name behind that of the owner that a description brings in is the name of its interface. -/
lemma exists_interface_of_introduced {owner : Text} {e : Entry} {description : Description}
    {before after : Signature} {name : Text} (hbefore : e.signature = some before)
    (h : (Description.ofEntry settings owner e true true).Returns description)
    (hafter : description.signature = some after)
    (hnew : .atom (owner ++ "." ++ name) ∈ after.type.nodes)
    (hold : .atom (owner ++ "." ++ name) ∉ before.type.nodes) :
    ∃ i ∈ description.interface, i.name = name := by
  by_contra hnone
  obtain ⟨values, hrevised⟩ := Description.signature_of_returns h
  rw [hbefore, Option.map_some] at hrevised
  obtain rfl := Option.some.inj (hafter.symm.trans hrevised)
  refine TypeExpr.avoids_iff.mp (Description.avoids_revised (qualified_ne_void owner name) ?_
    (TypeExpr.avoids_iff.mpr hold)) hnew
  intro i hi hname
  exact hnone ⟨i, hi, List.append_cancel_left hname⟩

/-- What a declaration and the descriptions `ms` of the members of its symbol say about interfaces. -/
structure InterfacesDefined (s : Symbol) (ms : List DescribedMember) (d : Declaration) : Prop where
  /-- The interfaces of the samples are kept, in the order of the members. -/
  kept : d.interfaces = ms.filterMap (·.description.interface)
  /-- All of them are defined in the namespace of the symbol, behind its header. -/
  defined : d.interfaces ≠ [] → ∃ main lead, IsHeaded d.comment d.kind main ∧ IsLead lead ∧
    d.text = main ++ "\n\n" ++ interfaceBlock s.name lead d.interfaces
  /-- The members are declared with the signatures of their descriptions. -/
  declared : ∀ declared ∈ d.members, ∃ m ∈ ms, m.declared? = some declared
  /-- A name behind that of the symbol that a description puts into a signature is the name of one of
  the interfaces. -/
  referenced : ∀ m ∈ ms, ∀ before after name, m.member.signature = some before →
    m.description.signature = some after →
    .atom (s.name ++ "." ++ name) ∈ after.type.nodes →
    .atom (s.name ++ "." ++ name) ∉ before.type.nodes → ∃ i ∈ d.interfaces, i.name = name

/-- No reference to an interface is left without its definition, whatever the kind of the symbol. -/
theorem interfacesDefined (h : (ofSymbol settings s).value = (.ok d, s')) :
    ∃ ms, DescribedMembers settings s.name s.keyedMembers ms ∧
      s' = s.withMembers (ms.map DescribedMember.revised) ∧ InterfacesDefined s ms d := by
  obtain ⟨header, ms, text, -, hms, rfl, htext, rfl⟩ := ofSymbol_eq_ok.mp h
  refine ⟨ms, hms, rfl, rfl, ?_, ?_, ?_⟩
  · intro hne
    have hparts : (ofParts (s.withMembers (ms.map DescribedMember.revised)) header ms).interfaces ≠
      [] := hne
    obtain ⟨main, withMembers, hmain, ht⟩ := textOf_eq hparts htext
    obtain ⟨lead, hlead, hblock⟩ := namespaceText_eq withMembers hparts
    exact ⟨main, lead, hmain, hlead, ht.trans (congrArg (main ++ "\n\n" ++ ·) hblock)⟩
  · intro declared hdeclared
    rcases Table.mem_of_mem_insertAll hdeclared with hnil | hmem
    · cases hnil
    · exact List.mem_filterMap.mp hmem
  · intro m hm before after name hbefore hafter hnew hold
    obtain ⟨i, hi, hname⟩ :=
      exists_interface_of_introduced hbefore (hms.described m hm) hafter hnew hold
    exact ⟨i, List.mem_filterMap.mpr ⟨m, hm, hi⟩, hname⟩

/-- A symbol with a method whose documentation shows a sample. -/
def sampled : Symbol :=
  { name := "box"
    functions := [("items", {
      name := "items"
      longDoc := "<p>Values on the following form:</p><pre>\x7b\"a\": 1\x7d</pre>"
      sourceType := "fn() -> \x7bstring: number\x7d"
      signature := some {
        name := "items"
        type := .function [] (some (.map (.atom "number") false)) false
        form := some .method } })] }

/-- The sample of the method makes one interface, named after the method. -/
lemma names_interfaces_sampled :
    ∃ d s', (ofSymbol {} sampled).value = (.ok d, s') ∧
      d.interfaces.map (·.name) = [("Items" : Text)] := by
  have hnames : ((ofSymbol {} sampled).value.1.toOption.map fun d => d.interfaces.map (·.name)) =
      some [("Items" : Text)] := by
    decide +kernel
  obtain ⟨d, hd, hinterfaces⟩ := Option.map_eq_some_iff.mp hnames
  exact ⟨d, _, Except.eq_of_toOption_fst hd, hinterfaces⟩

/-- A method whose documentation shows a sample. -/
theorem interfacesDefined_sampled :
    ∃ d s', (ofSymbol {} sampled).value = (.ok d, s') ∧
      d.interfaces.map (·.name) = [("Items" : Text)] ∧
      ∃ ms, DescribedMembers {} sampled.name sampled.keyedMembers ms ∧
        s' = sampled.withMembers (ms.map DescribedMember.revised) ∧
        InterfacesDefined sampled ms d := by
  obtain ⟨d, s', hvalue, hinterfaces⟩ := names_interfaces_sampled
  exact ⟨d, s', hvalue, hinterfaces, interfacesDefined hvalue⟩

end Declaration

end Ambient
