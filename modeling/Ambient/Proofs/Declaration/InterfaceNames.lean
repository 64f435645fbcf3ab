import Mathlib
import Ambient.Proofs.Declaration.Interfaces
import Ambient.Proofs.Description.Values
import Ambient.Proofs.Synthesis.Interface
import Ambient.Symbol.Document

/-!
# Names of interfaces

An interface is named after the member that shows its sample, with a capital as its first letter, and
a signature refers to it by that name behind the name of the symbol.  Members are told apart by their
keys, which say more than the capitalised name: a static member and one of an instance have one name,
and so have two members that differ in the case of their first letter.

`isSampleOf_interfaces` says where the interfaces of a declaration come from, member by member.  What
a name refers to is therefore known as well: the interfaces of all the members with that name, in
their order.  It is a single one for every name exactly if no two sampled members share one.
-/

namespace Ambient

open Text (capitalize)

/-! ### The sample of a member -/

namespace Description

variable {settings : Settings} {owner name : Text} {e : Entry} {blocks : List Prose.Block}
  {found : Option Interface} {d : Description} {withSignature : Bool}

/-- Whether a block announces a sample. -/
def announces (b : Prose.Block) : Bool :=
  !b.isCode && Prose.announcesSample b.text

/-- An interface has the name of its member with a capital letter. -/
lemma name_of_interfaceOfCode {code prose : Text} {i : Interface}
    (h : (interfaceOfCode owner name code prose).Returns i) : i.name = name.capitalize := by
  unfold interfaceOfCode at h
  split at h
  · exact absurd h (Run.not_returns_throw _)
  · split at h
    · exact absurd h (Run.not_returns_throw _)
    · rw [← Run.returns_ofLogged.mp h, Interface.name_infer]

/-- An interface is found exactly if a sample is announced, and it is named after the entry. -/
lemma found_of_returns (h : (announcedInterface owner name blocks).Returns found) :
    found.isSome = blocks.any announces ∧ ∀ i ∈ found, i.name = name.capitalize := by
  unfold announcedInterface at h
  split at h
  · next hnone =>
    obtain rfl := Run.returns_pure.mp h
    refine ⟨?_, by simp⟩
    rw [List.dropWhile_eq_nil_iff] at hnone
    have hall : blocks.any announces = false := by
      rw [List.any_eq_false]
      intro b hb
      have hcode := hnone b hb
      simp only [Bool.or_eq_true, Bool.not_eq_true'] at hcode
      rcases hcode with hcode | hquiet
      · simp [announces, hcode]
      · simp [announces, hquiet]
    rw [hall]
    rfl
  · exact absurd h (Run.not_returns_throw _)
  · next b next rest hcut =>
    split_ifs at h with hcode
    · obtain ⟨i, hi, hfound⟩ := Run.returns_bind.mp h
      obtain rfl := Run.returns_pure.mp hfound
      have hmem : b ∈ blocks :=
        (List.dropWhile_suffix _).subset (hcut ▸ List.mem_cons_self)
      -- the search stops at the first block that announces a sample
      have hb : announces b = true := by
        have hhead := List.head?_dropWhile_not (fun b => b.isCode || !Prose.announcesSample b.text)
          blocks
        rw [hcut] at hhead
        simpa [announces] using hhead
      refine ⟨(List.any_eq_true.mpr ⟨b, hmem, hb⟩).symm, ?_⟩
      intro j hj
      obtain rfl : i = j := Option.some.inj hj
      exact name_of_interfaceOfCode hi
    · exact absurd h (Run.not_returns_throw _)

/-- The interface of a description is that of the announced sample, if there is a signature. -/
lemma interface_of_returns (h : (ofEntry settings owner e true withSignature).Returns d) :
    if e.signature.isSome then
      (announcedInterface owner e.name (entryBlocks settings e)).Returns d.interface
    else d.interface = none := by
  have hinterface := (returns_ofEntry.mp h).interface
  rw [Bool.and_true] at hinterface
  split_ifs at hinterface ⊢
  · exact hinterface
  · exact (Run.returns_pure.mp hinterface).symm

end Description

namespace Declaration

variable {settings : Settings} {owner : Text} {members : List (Text × Member)} {s s' : Symbol}
  {d : Declaration} {ms : List DescribedMember}

/-- Whether a member shows a sample: it has a signature, and its documentation announces one. -/
def showsSample (settings : Settings) (m : Member) : Bool :=
  m.signature.isSome && (Description.entryBlocks settings m.toEntry).any Description.announces

/-- The members of a symbol that show a sample. -/
def sampledMembers (settings : Settings) (s : Symbol) : List Member :=
  s.members.filter (showsSample settings)

/-- The interface is that of the sample of a member, and named after it. -/
def IsSampleOf (settings : Settings) (owner : Text) (m : Member) (i : Interface) : Prop :=
  (Description.announcedInterface owner m.name
    (Description.entryBlocks settings m.toEntry)).Returns (some i) ∧ i.name = m.name.capitalize

/-- The interfaces that a name refers to in the namespace of a symbol. -/
def interfacesNamed (d : Declaration) (name : Text) : List Interface :=
  d.interfaces.filter fun i => i.name = name

/-- A member has an interface just if it shows a sample, and it is the interface of this sample. -/
lemma isSampleOf_interface {m : Member} {description : Description} {withSignature : Bool}
    (h : (Description.ofEntry settings owner m.toEntry true withSignature).Returns description) :
    (showsSample settings m = true ∧ ∃ i, description.interface = some i ∧
      IsSampleOf settings owner m i) ∨
    showsSample settings m = false ∧ description.interface = none := by
  have hinterface := Description.interface_of_returns h
  cases hs : m.signature.isSome with
  | false =>
    simp only [hs, Bool.false_eq_true, if_false] at hinterface
    exact Or.inr ⟨by simp [showsSample, hs], hinterface⟩
  | true =>
    simp only [hs, if_true] at hinterface
    obtain ⟨hfound, hname⟩ := Description.found_of_returns hinterface
    cases hi : description.interface with
    | none =>
      rw [hi, Option.isSome_none] at hfound
      exact Or.inr ⟨by simp [showsSample, hs, ← hfound], rfl⟩
    | some i =>
      rw [hi, Option.isSome_some] at hfound
      rw [hi] at hinterface hname
      exact Or.inl ⟨by simp [showsSample, hs, ← hfound], i, rfl, hinterface, hname i rfl⟩

/-- The interfaces of described members are those of the members that show a sample, one by one. -/
lemma forall₂_isSampleOf (hms : DescribedMembers settings owner members ms) :
    List.Forall₂ (IsSampleOf settings owner)
      ((members.map Prod.snd).filter (showsSample settings))
      (ms.filterMap (·.description.interface)) := by
  induction ms generalizing members with
  | nil =>
    obtain rfl := describedMembers_nil.mp hms
    exact .nil
  | cons m ms ih =>
    obtain ⟨rest, rfl, hm, hms⟩ := describedMembers_cons.mp hms
    rw [List.map_cons]
    rcases isSampleOf_interface hm with ⟨hshows, i, hi, hsample⟩ | ⟨hshows, hnone⟩
    · rw [List.filter_cons_of_pos hshows, List.filterMap_cons, hi]
      exact .cons hsample (ih hms)
    · rw [List.filter_cons_of_neg (by simp [hshows]), List.filterMap_cons, hnone]
      exact ih hms

/-- Interfaces are named after the members that they are made for. -/
lemma map_name_eq {sampled : List Member} {is : List Interface}
    (h : List.Forall₂ (IsSampleOf settings owner) sampled is) :
    is.map (·.name) = sampled.map (·.name.capitalize) := by
  induction h with
  | nil => rfl
  | cons hi _ ih => rw [List.map_cons, List.map_cons, hi.2, ih]

/-- The interfaces of a declaration are those of the members that show a sample, one by one and named
after them.  A name refers to those of all the members with that name, and no two interfaces share a
name exactly if no two of these members do, the case of their first letters apart. -/
theorem isSampleOf_interfaces (h : (ofSymbol settings s).value = (.ok d, s')) :
    List.Forall₂ (IsSampleOf settings s.name) (sampledMembers settings s) d.interfaces ∧
      (∀ name, List.Forall₂ (IsSampleOf settings s.name)
        ((sampledMembers settings s).filter fun m => m.name.capitalize = name)
        (d.interfacesNamed name)) ∧
      ((d.interfaces.map (·.name)).Nodup ↔
        ((sampledMembers settings s).map (·.name.capitalize)).Nodup) := by
  obtain ⟨ms, hms, -, hdefined⟩ := interfacesDefined h
  have hsamples := forall₂_isSampleOf hms
  rw [← hdefined.kept] at hsamples
  refine ⟨hsamples, fun name => ?_, by rw [map_name_eq hsamples]; rfl⟩
  exact List.rel_filter (fun m i hi => by simp [hi.2]) hsamples

/-- A method whose documentation shows a sample. -/
theorem isSampleOf_interfaces_sampled :
    ∃ d s', (ofSymbol {} sampled).value = (.ok d, s') ∧
      (sampledMembers {} sampled).map (·.name) = [("items" : Text)] ∧
      List.Forall₂ (IsSampleOf {} sampled.name) (sampledMembers {} sampled) d.interfaces ∧
      (∀ name, List.Forall₂ (IsSampleOf {} sampled.name)
        ((sampledMembers {} sampled).filter fun m => m.name.capitalize = name)
        (d.interfacesNamed name)) ∧
      ((d.interfaces.map (·.name)).Nodup ↔
        ((sampledMembers {} sampled).map (·.name.capitalize)).Nodup) := by
  obtain ⟨d, s', hvalue, hinterfaces⟩ := names_interfaces_sampled
  have hsamples := isSampleOf_interfaces hvalue
  -- there is one member, and there are as many samples as interfaces
  have hone : d.interfaces.length = sampled.members.length := by
    rw [← List.length_map (fun i : Interface => i.name), hinterfaces]
    rfl
  have hlength : (sampledMembers {} sampled).length = sampled.members.length :=
    hsamples.1.length_eq.trans hone
  have hall : sampledMembers {} sampled = sampled.members :=
    List.filter_sublist.eq_of_length hlength
  refine ⟨d, s', hvalue, ?_, hsamples⟩
  rw [hall]
  rfl

/-- A document with a property and a static property of one name, and a sample for each. -/
def twoSamples : Table Json := [
  ("Box", .object [
    ("size", .object [
      ("!type", .text "\x7bstring: number\x7d"),
      ("!scriptable.description", .text
        "<p>The size is on the following form:</p><pre>\x7b\"width\": 1\x7d</pre>")]),
    ("static size", .object [
      ("!type", .text "\x7bstring: string\x7d"),
      ("!scriptable.description", .text
        "<p>The size is on the following form:</p><pre>\x7b\"width\": \"wide\"\x7d</pre>")])])]

/-- The shapes of the two samples, under one name. -/
def sizes : List Interface := [
  { name := "Size", fields := [{ key := Text.points "width", type := .number }], isMixed := false },
  { name := "Size", fields := [{ key := Text.points "width", type := .string }], isMixed := false }]

/-- Two members refer to their samples by the same name, which is that of both interfaces. -/
theorem shared_name_twoSamples :
    ∃ all e d s', (Document.symbols {} twoSamples none).Returns all ∧ e ∈ all ∧
      (ofSymbol {} e.2).value = (.ok d, s') ∧ d.interfaces = sizes ∧
      ¬ (d.interfaces.map (·.name)).Nodup ∧
      d.members.map (fun m => m.2.signature.render) =
        [("size: Box.Size" : Text), "static size: Box.Size"] := by
  have hparts : (((Document.symbols {} twoSamples none).run.value.toOption.bind List.head?).bind
      fun e => (ofSymbol {} e.2).value.1.toOption.map fun d =>
        (d.interfaces, d.members.map fun m => m.2.signature.render)) =
      some (sizes, [("size: Box.Size" : Text), "static size: Box.Size"]) := by
    decide +kernel
  obtain ⟨e, he, hd⟩ := Option.bind_eq_some_iff.mp hparts
  obtain ⟨all, hall, he⟩ := Option.bind_eq_some_iff.mp he
  obtain ⟨d, hd, hshape⟩ := Option.map_eq_some_iff.mp hd
  obtain ⟨hinterfaces, hmembers⟩ := Prod.mk.inj hshape
  refine ⟨all, e, d, _, Run.returns_iff_toOption.mpr hall, List.mem_of_head? he,
    Except.eq_of_toOption_fst hd, hinterfaces, ?_, hmembers⟩
  rw [hinterfaces]
  decide

end Declaration

end Ambient
