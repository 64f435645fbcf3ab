import Mathlib
import Ambient.Proofs.Declaration.Emission
import Ambient.Proofs.Description.Revision
import Ambient.Proofs.Symbol.Document

/-!
# Which members are declared

A symbol keeps its properties and its functions apart, each of them under its key, and a declaration
puts both into one table.  No member is lost on the way if no key stands in both: that is so exactly
if the data of the symbol and of its overlay agree, for every key, on whether it is a property or a
function (`declaresAll_iff`).  Where they disagree the declaration has one member for two.
-/

namespace Ambient

open Table (keys restrict)

namespace Declaration

variable {settings : Settings} {s s' : Symbol} {d : Declaration} {ms : List DescribedMember}

/-- Members with the same key are all properties or all functions. -/
def KindsAgree (ms : List Member) : Prop :=
  ∀ m ∈ ms, ∀ n ∈ ms, m.key = n.key → m.isFunction = n.isFunction

/-- A declaration has one member for each member of the symbol, in their order, with the name of that
member and with the comment and the signature of its description. -/
def DeclaresAll (settings : Settings) (s : Symbol) (d : Declaration) : Prop :=
  List.Forall₂ (fun m declared => declared.1 = m.1 ∧ declared.2.name = m.2.name ∧
      ∃ description, (Description.ofEntry settings s.name m.2.toEntry true true).Returns description ∧
        declared.2.comment = description.comment ∧
        description.signature = some declared.2.signature)
    s.keyedMembers d.members

/-! ### Declared members -/

/-- A member whose description has a signature is declared with it. -/
lemma declared_eq_some {m : DescribedMember} {declared : Text × DeclaredMember} :
    m.declared? = some declared ↔
      declared.1 = m.key ∧ declared.2.name = m.member.name ∧
        declared.2.comment = m.description.comment ∧
        m.description.signature = some declared.2.signature := by
  obtain ⟨key, name, comment, signature⟩ := declared
  simp only [DescribedMember.declared?, Option.map_eq_some_iff, Prod.mk.injEq,
    DeclaredMember.mk.injEq]
  constructor
  · rintro ⟨sig, hsig, rfl, rfl, rfl, rfl⟩
    exact ⟨rfl, rfl, rfl, hsig⟩
  · rintro ⟨rfl, rfl, rfl, hsig⟩
    exact ⟨_, hsig, rfl, rfl, rfl, rfl⟩

/-- Members with signatures are declared one by one. -/
lemma forall₂_declared {owner : Text} {members : List (Text × Member)}
    (hms : DescribedMembers settings owner members ms)
    (hsignatures : ∀ m ∈ members, m.2.signature.isSome) :
    List.Forall₂ (fun m declared => declared.1 = m.1 ∧ declared.2.name = m.2.name ∧
        ∃ description, (Description.ofEntry settings owner m.2.toEntry true true).Returns description
          ∧ declared.2.comment = description.comment ∧
          description.signature = some declared.2.signature)
      members (ms.filterMap DescribedMember.declared?) := by
  induction ms generalizing members with
  | nil =>
    obtain rfl := describedMembers_nil.mp hms
    exact List.Forall₂.nil
  | cons m ms ih =>
    obtain ⟨rest, rfl, hm, hms⟩ := describedMembers_cons.mp hms
    obtain ⟨hsig, hrest⟩ := List.forall_mem_cons.mp hsignatures
    obtain ⟨sig, hsig⟩ := Option.isSome_iff_exists.mp hsig
    obtain ⟨values, hrevised⟩ := Description.signature_of_returns hm
    obtain ⟨declared, hdeclared⟩ : ∃ declared, m.declared? = some declared := by
      rw [hsig] at hrevised
      simp [DescribedMember.declared?, hrevised]
    rw [List.filterMap_cons_some hdeclared]
    obtain ⟨hkey, hname, hcomment, hsignature⟩ := declared_eq_some.mp hdeclared
    exact List.Forall₂.cons ⟨hkey, hname, m.description, hm, hcomment, hsignature⟩ (ih hms hrest)

/-- Nothing is lost exactly if the keys of all members are distinct. -/
lemma declaresAll_iff_nodup (hsignatures : ∀ m ∈ s.keyedMembers, m.2.signature.isSome)
    (h : (ofSymbol settings s).value = (.ok d, s')) :
    DeclaresAll settings s d ↔ (keys s.keyedMembers).Nodup := by
  obtain ⟨header, ms, text, -, hms, rfl, -, rfl⟩ := ofSymbol_eq_ok.mp h
  have hdeclared := forall₂_declared hms hsignatures
  have hmembers : (ofParts (s.withMembers (ms.map DescribedMember.revised)) header ms).members =
      Table.ofPairs (ms.filterMap DescribedMember.declared?) := rfl
  constructor
  · intro hall
    rw [← Table.keys_eq_of_forall₂ (fun _ _ hm => hm.1) hall]
    exact hmembers ▸ Table.nodup_keys_ofPairs _
  · intro hnodup
    rw [← Table.keys_eq_of_forall₂ (fun _ _ hm => hm.1) hdeclared] at hnodup
    unfold DeclaresAll
    rw [hmembers, Table.ofPairs_of_nodup hnodup]
    exact hdeclared

/-! ### Members of two kinds -/

/-- A key stands in both tables of members only if a property and a function have it. -/
lemma disjoint_keyed_iff (members : List Member) :
    List.Disjoint
        (keys (Table.ofPairs (Symbol.keyed (fun m => !Symbol.isCalled m) members)))
        (keys (Table.ofPairs (Symbol.keyed Symbol.isCalled members))) ↔
      KindsAgree members := by
  have hmem : ∀ (p : Member → Bool) key, key ∈ keys (Table.ofPairs (Symbol.keyed p members)) ↔
      ∃ m ∈ members, p m = true ∧ m.key = key := by
    intro p key
    rw [Table.ofPairs_eq_insertAll, Table.mem_keys_insertAll, Symbol.mem_keys_keyed]
    simp [keys]
  constructor
  · intro hdisjoint m hm n hn hkey
    change Symbol.isCalled m = Symbol.isCalled n
    cases hm' : Symbol.isCalled m <;> cases hn' : Symbol.isCalled n
    case false.true =>
      exact absurd ((hmem _ _).mpr ⟨n, hn, hn', rfl⟩)
        (hdisjoint ((hmem _ _).mpr ⟨m, hm, by rw [hm']; rfl, hkey⟩))
    case true.false =>
      exact absurd ((hmem _ _).mpr ⟨m, hm, hm', hkey⟩)
        (hdisjoint ((hmem _ _).mpr ⟨n, hn, by rw [hn']; rfl, rfl⟩))
    all_goals rfl
  · intro hagree key hproperty hfunction
    obtain ⟨m, hm, hnot, rfl⟩ := (hmem _ _).mp hproperty
    obtain ⟨n, hn, hcalled, hkey⟩ := (hmem _ _).mp hfunction
    have hsame : Symbol.isCalled m = Symbol.isCalled n := hagree m hm n hn hkey.symm
    rw [hsame, hcalled] at hnot
    cases hnot

/-- No member of a symbol is lost in its declaration exactly if the data of the document and of the
overlay agree on which keys are those of functions, and that is so exactly if no key stands both
among the properties and among the functions of the symbol. -/
theorem declaresAll_iff {document : Table Json} {given : Option Json} {all : Table Symbol}
    {e : Text × Symbol} (hnodup : (keys document).Nodup)
    (h : (Document.symbols settings document given).Returns all) (he : e ∈ all) :
    ∃ overlay members, Document.overlayOf document given = .ok overlay ∧
      Document.membersIn settings
        (Document.dataOf (restrict (· = e.1) (document ++ overlay))) = .ok members ∧
      (List.Disjoint (keys e.2.properties) (keys e.2.functions) ↔ KindsAgree members) ∧
      ∀ d s', (ofSymbol settings e.2).value = (.ok d, s') →
        (DeclaresAll settings e.2 d ↔ KindsAgree members) := by
  obtain ⟨overlay, members, hoverlay, hmembers, hproperties, hfunctions⟩ :=
    Document.mem_symbols hnodup h he
  have hkeys : ∀ t : Table Member, keys (Document.translated settings e.1 t) = keys t := fun t => by
    simp [keys, Document.translated]
  have hdisjoint : List.Disjoint (keys e.2.properties) (keys e.2.functions) ↔ KindsAgree members := by
    rw [hproperties, hfunctions, hkeys, hkeys, disjoint_keyed_iff]
  refine ⟨overlay, members, hoverlay, hmembers, hdisjoint, fun d s' hd => ?_⟩
  have hsignatures : ∀ m ∈ e.2.keyedMembers, m.2.signature.isSome := by
    intro m hm
    rw [Symbol.keyedMembers, hproperties, hfunctions, Document.translated, Document.translated,
      ← List.map_append] at hm
    obtain ⟨m, -, rfl⟩ := List.mem_map.mp hm
    rfl
  have hparts : keys e.2.keyedMembers = keys e.2.properties ++ keys e.2.functions :=
    List.map_append ..
  have hnodup₁ : (keys e.2.properties).Nodup := by
    rw [hproperties, hkeys]
    exact Table.nodup_keys_ofPairs _
  have hnodup₂ : (keys e.2.functions).Nodup := by
    rw [hfunctions, hkeys]
    exact Table.nodup_keys_ofPairs _
  -- either table repeats no key, so only a key of both is lost
  rw [declaresAll_iff_nodup hsignatures hd, hparts, List.nodup_append', ← hdisjoint]
  simp [hnodup₁, hnodup₂]

/-- A document whose overlay makes a property of a function. -/
def twoKinds : Table Json := [
  ("Box", .object [("size", .object [("!type", .text "fn() -> number")])]),
  ("!define", .object [("Box", .object [("size", .object [("!type", .text "number")])])])]

/-- A function of the document that the overlay makes a property. -/
theorem declaresAll_iff_twoKinds :
    ∃ all e, (Document.symbols {} twoKinds none).Returns all ∧ e ∈ all ∧
      ∃ overlay members, Document.overlayOf twoKinds none = .ok overlay ∧
        Document.membersIn {} (Document.dataOf (restrict (· = e.1) (twoKinds ++ overlay))) =
          .ok members ∧
        (List.Disjoint (keys e.2.properties) (keys e.2.functions) ↔ KindsAgree members) ∧
        ∀ d s', (ofSymbol {} e.2).value = (.ok d, s') →
          (DeclaresAll {} e.2 d ↔ KindsAgree members) := by
  have hsome : ((Document.symbols {} twoKinds none).run.value.toOption.bind List.head?).isSome := by
    decide
  obtain ⟨e, he⟩ := Option.isSome_iff_exists.mp hsome
  obtain ⟨all, hall, he⟩ := Option.bind_eq_some_iff.mp he
  have hmem : e ∈ all := List.mem_of_head? he
  have hreturns : (Document.symbols {} twoKinds none).Returns all :=
    Run.returns_iff_toOption.mpr hall
  exact ⟨all, e, hreturns, hmem, declaresAll_iff (by decide) hreturns hmem⟩

/-- The key `size` stands in both tables of the symbol, and its declaration has one member. -/
theorem keys_twoKinds :
    ((Document.symbols {} twoKinds none).run.value.toOption.map fun all => all.map fun e =>
      (keys e.2.properties, keys e.2.functions,
        (ofSymbol {} e.2).value.1.toOption.map fun d => keys d.members)) =
      some [([("size" : Text)], [("size" : Text)], some [("size" : Text)])] := by
  decide +kernel

end Declaration

end Ambient
