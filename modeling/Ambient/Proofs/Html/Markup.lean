import Mathlib
import Ambient.Html.Tree
import Ambient.Proofs.Text.Letter

/-!
# Markup that is read back

`IsMarkup` says which text is the plain markup of a forest: elements without attributes between a
start and an end tag, elements that can have no content by their start tag alone, and text that shows
something and holds nothing that is read as markup.  Such a text is read back as the forest
(`IsMarkup.parse_eq`).

The text is read in chunks.  `Reads` says that a chunk gives some events and leaves the rest of the
text alone, so chunks that follow one another are put together (`Reads.trans`).  The events of a forest
add its nodes to those of the innermost open element, one after another.
-/

namespace Ambient

namespace Html

/-! ### Plain markup -/

/-- The name of an element, in small letters; its content is no raw text. -/
structure IsTagName (name : Text) : Prop where
  ne_nil : name ≠ []
  lower : ∀ c ∈ name, c.isLower = true
  notRaw : holdsRawText name = false

/-- Text that shows something and holds no markup. -/
structure IsPlainText (t : Text) : Prop where
  plain : ∀ c ∈ t, c ≠ '<' ∧ c ≠ '&'
  shows : t.all isMarkupBlank = false

/-- The first node is no text. -/
def BeginsWithTag (ns : List Node) : Prop :=
  ∀ t, ns.head? ≠ some (.text t)

/-- A forest and its markup. -/
inductive IsMarkup : List Node → Text → Prop
  | nil : IsMarkup [] []
  | text {t u : Text} {ns : List Node} : IsPlainText t → BeginsWithTag ns → IsMarkup ns u →
      IsMarkup (.text t :: ns) (t ++ u)
  | element {name inner u : Text} {children ns : List Node} : IsTagName name →
      voidElements.contains name = false → IsMarkup children inner → IsMarkup ns u →
      IsMarkup (.element name [] children :: ns)
        ('<' :: (name ++ '>' :: (inner ++ '<' :: '/' :: (name ++ '>' :: u))))
  | void {name u : Text} {ns : List Node} : IsTagName name → voidElements.contains name = true →
      IsMarkup ns u → IsMarkup (.element name [] [] :: ns) ('<' :: (name ++ '>' :: u))

/-- The text `cs` gives the events `es`, and `rest` is left of it. -/
structure Reads (cs : Text) (es : List Event) (rest : Text) : Prop where
  events : ∀ n strict, eventsFrom (n + es.length) strict cs = es ++ eventsFrom n strict rest
  length : es.length + rest.length ≤ cs.length

variable {cs rest rest' t u name : Text} {es es' : List Event} {ns children : List Node} {c : Char}

lemma Reads.refl (cs : Text) : Reads cs [] cs :=
  ⟨fun _ _ => rfl, by simp⟩

/-- What is read of a text and then of its rest is read in a row. -/
lemma Reads.trans (h : Reads cs es rest) (h' : Reads rest es' rest') : Reads cs (es ++ es') rest' := by
  refine ⟨fun n strict => ?_, ?_⟩
  · have hlength : n + (es ++ es').length = n + es'.length + es.length := by
      rw [List.length_append]
      omega
    rw [hlength, h.events, h'.events, List.append_assoc]
  · have hfirst := h.length
    have hsecond := h'.length
    rw [List.length_append]
    omega

/-- A text that is read to its end has these events. -/
lemma Reads.events_eq (h : Reads cs es []) : Html.events cs = es := by
  have hlength := h.length
  obtain ⟨n, hn⟩ : ∃ n, cs.length = n + es.length := ⟨cs.length - es.length, by simp at hlength; omega⟩
  rw [Html.events, hn, h.events]
  cases n <;> simp [eventsFrom]

/-- Text shows something if it holds a character that is no white space. -/
lemma isPlainText_of_mem (hplain : ∀ d ∈ t, d ≠ '<' ∧ d ≠ '&') (hmem : c ∈ t) (hc : isBlank c = false) :
    IsPlainText t := by
  refine ⟨hplain, ?_⟩
  rw [← Bool.not_eq_true, List.all_eq_true]
  intro hall
  have hblank := hall c hmem
  simp only [isMarkupBlank, Bool.or_eq_true, beq_iff_eq] at hblank
  rcases hblank with (((rfl | rfl) | rfl) | rfl) | rfl <;> exact absurd hc (by decide)

/-- A text is empty or goes on with a tag. -/
def EndsText (rest : Text) : Prop :=
  rest = [] ∨ rest.head? = some '<'

/-- Whether running text goes on with a character. -/
def isPlain (c : Char) : Bool :=
  !(c == '<' || c == '&')

/-- Plain text is taken as a whole in front of a tag or at the end. -/
lemma takeWhile_isPlain (ht : ∀ c ∈ t, isPlain c = true) (hrest : EndsText rest) :
    (t ++ rest).takeWhile isPlain = t ∧ (t ++ rest).dropWhile isPlain = rest := by
  rw [List.takeWhile_append_of_pos ht, List.dropWhile_append_of_pos ht]
  rcases hrest with rfl | hhead
  · exact ⟨List.append_nil t, rfl⟩
  · obtain ⟨rest, rfl⟩ := List.head?_eq_some_iff.mp hhead
    exact ⟨List.append_nil t, rfl⟩

/-- Plain text is read as one text. -/
lemma reads_text (ht : IsPlainText t) (hrest : EndsText rest) :
    Reads (t ++ rest) [.text t] rest := by
  cases t with
  | nil => exact absurd ht.shows (by decide)
  | cons c t =>
    obtain ⟨hc, hplain⟩ := List.forall_mem_cons.mp ht.plain
    have hall : ∀ c ∈ t, isPlain c = true := fun c hc => by simpa [isPlain] using hplain c hc
    obtain ⟨htake, hdrop⟩ := takeWhile_isPlain hall hrest
    refine ⟨fun n strict => ?_, by simp only [List.length_append, List.length_cons, List.length_nil]; omega⟩
    rw [List.length_singleton, List.cons_append, eventsFrom.eq_5 _ _ _ _ hc.1 hc.2]
    change .text (c :: (t ++ rest).takeWhile isPlain) ::
      eventsFrom n strict ((t ++ rest).dropWhile isPlain) = _
    rw [htake, hdrop]
    rfl

lemma isTagChar_of_isLower (h : c.isLower = true) : isTagChar c = true := by
  have hne : ∀ d : Char, d.isLower = false → c ≠ d := by
    rintro d hd rfl
    rw [h] at hd
    cases hd
  have hzero : c.toNat ≠ 0 := by
    intro heq
    obtain rfl : c = Char.ofNat 0 := by rw [← heq, Char.ofNat_toNat]
    exact absurd h (by decide)
  simp [isTagChar, hzero, hne '\t' rfl, hne '\n' rfl, hne '\r' rfl, hne '\x0c' rfl, hne ' ' rfl,
    hne '/' rfl, hne '>' rfl]

lemma isEndNameChar_of_isLower (h : c.isLower = true) : isEndNameChar c = true := by
  simp [isEndNameChar, Char.isAlphanum, Char.isAlpha, h]

/-- A name ends at the closing bracket. -/
lemma takeWhile_name {p : Char → Bool} (hp : ∀ c, c.isLower = true → p c = true) (hend : p '>' = false)
    (h : ∀ c ∈ name, c.isLower = true) (rest : Text) :
    (name ++ '>' :: rest).takeWhile p = name ∧ (name ++ '>' :: rest).dropWhile p = '>' :: rest := by
  have hall : ∀ c ∈ name, p c = true := fun c hc => hp c (h c hc)
  rw [List.takeWhile_append_of_pos hall, List.dropWhile_append_of_pos hall,
    List.takeWhile_cons_of_neg (by simp [hend]), List.dropWhile_cons_of_neg (by simp [hend])]
  exact ⟨List.append_nil name, rfl⟩

/-- Nothing is skipped in front of the bracket that closes a tag. -/
lemma skipBetween_bracket (rest : Text) : skipBetween ('>' :: rest) = '>' :: rest :=
  rfl

/-- There are no attributes in front of the bracket that closes a tag. -/
lemma attributesFrom_bracket (n : ℕ) (before : Char) (rest : Text) :
    attributesFrom (n + 1) before ('>' :: rest) = ([], '>' :: rest) := by
  rw [attributesFrom.eq_1, if_neg (by simp)]

/-- A name in small letters with a bracket behind it is a whole tag. -/
lemma startTag_name (h : ∀ d ∈ c :: name, d.isLower = true) (rest : Text) :
    startTag c (name ++ '>' :: rest) = .whole (.start (c :: name) [] false) rest := by
  obtain ⟨htake, hdrop⟩ := takeWhile_name (fun _ => isTagChar_of_isLower) (by decide)
    (List.forall_mem_cons.mp h).2 rest
  simp only [startTag, htake, hdrop, skipBetween_bracket, attributesFrom_bracket,
    Text.toSmall_of_isLower h]
  rfl

/-- A start tag without attributes is read as one event. -/
lemma reads_start (hname : IsTagName name) (rest : Text) :
    Reads ('<' :: (name ++ '>' :: rest)) [.start name [] false] rest := by
  obtain ⟨c, name', rfl⟩ := List.exists_cons_of_ne_nil hname.ne_nil
  have hc := hname.lower c List.mem_cons_self
  have hstart : isTagStart c = true := by simp [isTagStart, Char.isAlpha, hc]
  have hslash : c ≠ '/' := by
    rintro rfl
    exact absurd hc (by decide)
  have htag : tag? (c :: (name' ++ '>' :: rest)) =
      some (.whole (.start (c :: name') [] false) rest) := by
    rw [tag?.eq_2 _ _ hslash, if_pos hstart, startTag_name hname.lower]
  refine ⟨fun n strict => ?_, ?_⟩
  · rw [List.length_singleton, List.cons_append, eventsFrom.eq_3, htag]
    dsimp only
    rw [if_neg (by simp [hname.notRaw])]
    rfl
  · simp only [List.length_cons, List.length_append, List.length_nil]
    omega

/-- An end tag is read as one event. -/
lemma reads_finish (hname : IsTagName name) (rest : Text) :
    Reads ('<' :: '/' :: (name ++ '>' :: rest)) [.finish name] rest := by
  obtain ⟨c, name', rfl⟩ := List.exists_cons_of_ne_nil hname.ne_nil
  obtain ⟨hc, hlower⟩ := List.forall_mem_cons.mp hname.lower
  have halpha : c.isAlpha = true := by simp [Char.isAlpha, hc]
  obtain ⟨htake, hdrop⟩ := takeWhile_name (fun _ => isEndNameChar_of_isLower) (by decide) hlower rest
  have hplain : plainEndTag? (c :: (name' ++ '>' :: rest)) = some (c :: name', rest) := by
    have hblank := isBlank_of_isAlphanum (isAlphanum_of_isLower hc)
    have hbracket : Text.trimStart ('>' :: rest) = '>' :: rest := rfl
    have hstart : Text.trimStart (c :: (name' ++ '>' :: rest)) = c :: (name' ++ '>' :: rest) := by
      rw [Text.trimStart, List.dropWhile_cons_of_neg (by simp [hblank])]
    rw [plainEndTag?.eq_1, hstart]
    dsimp only
    rw [if_pos halpha, htake, hdrop, hbracket, Text.toSmall_of_isLower hname.lower]
    rfl
  have htag : tag? ('/' :: c :: (name' ++ '>' :: rest)) = some (.whole (.finish (c :: name')) rest) := by
    rw [tag?.eq_1]
    unfold endTag
    rw [if_neg (by simp), hplain]
  refine ⟨fun n strict => ?_, ?_⟩
  · rw [List.length_singleton, List.cons_append, eventsFrom.eq_3, htag]
    rfl
  · simp only [List.length_cons, List.length_append, List.length_nil]
    omega

/-- Markup that begins with a tag ends the text in front of it. -/
lemma IsMarkup.endsText_append (h : IsMarkup ns t) (hns : BeginsWithTag ns) (hrest : EndsText rest) :
    EndsText (t ++ rest) := by
  cases h with
  | nil => exact hrest
  | text => exact absurd rfl (hns _)
  | element => exact Or.inr rfl
  | void => exact Or.inr rfl

/-! ### The forest of events -/

namespace Construction

/-- Several more nodes in the innermost open element. -/
def addNodes (k : Construction) (ns : List Node) : Construction :=
  ns.foldl addNode k

/-- A construction that waits for other end tags. -/
def withAwaited (k : Construction) (names : List Text) : Construction :=
  { k with awaited := names }

/-- Nothing is waited for but the end tags of elements that have no content. -/
def AwaitsVoid (names : List Text) : Prop :=
  ∀ name ∈ names, voidElements.contains name = true

variable {k : Construction} {node : Node} {e : OpenElement} {stack : List OpenElement}
  {names : List Text}

lemma flush_of_pending_nil (h : k.pending = []) : k.flush = k := by
  obtain ⟨stack, roots, pending, awaited⟩ := k
  obtain rfl : pending = [] := h
  rfl

lemma awaited_addNode (k : Construction) (node : Node) : (k.addNode node).awaited = k.awaited := by
  unfold addNode
  split <;> rfl

lemma pending_addNode (k : Construction) (node : Node) : (k.addNode node).pending = k.pending := by
  unfold addNode
  split <;> rfl

lemma pending_flush (k : Construction) : k.flush.pending = [] := by
  unfold flush addText
  dsimp only
  split_ifs
  · rfl
  · rw [pending_addNode]

lemma awaited_flush (k : Construction) : k.flush.awaited = k.awaited := by
  unfold flush addText
  dsimp only
  split_ifs
  · rfl
  · rw [awaited_addNode]

/-- What is waited for is not asked when a node is added. -/
lemma addNode_withAwaited (k : Construction) (names : List Text) (node : Node) :
    (k.withAwaited names).addNode node = (k.addNode node).withAwaited names := by
  obtain ⟨stack, roots, pending, awaited⟩ := k
  cases stack <;> rfl

/-- What is waited for is not asked when nodes are added. -/
lemma addNodes_withAwaited (k : Construction) (names : List Text) (ns : List Node) :
    (k.withAwaited names).addNodes ns = (k.addNodes ns).withAwaited names := by
  induction ns generalizing k with
  | nil => rfl
  | cons n ns ih =>
    rw [addNodes, List.foldl_cons, addNode_withAwaited]
    exact ih (k.addNode n)

/-- Nodes are added to the innermost open element. -/
lemma addNodes_of_open (h : k.stack = e :: stack) (ns : List Node) :
    k.addNodes ns = { k with stack := { e with nodes := ns.reverse ++ e.nodes } :: stack } := by
  induction ns generalizing k e with
  | nil =>
    obtain ⟨_, roots, pending, awaited⟩ := k
    obtain rfl := h
    rfl
  | cons n ns ih =>
    have hnode : k.addNode n = { k with stack := { e with nodes := n :: e.nodes } :: stack } := by
      rw [addNode, h]
    rw [addNodes, List.foldl_cons, ← addNodes, hnode,
      ih (k := { k with stack := { e with nodes := n :: e.nodes } :: stack }) rfl]
    simp

/-- Outside of elements nodes are added to the roots. -/
lemma addNodes_of_stack_nil (h : k.stack = []) (ns : List Node) :
    k.addNodes ns = { k with roots := ns.reverse ++ k.roots } := by
  induction ns generalizing k with
  | nil => rfl
  | cons n ns ih =>
    have hnode : k.addNode n = { k with roots := n :: k.roots } := by
      rw [addNode, h]
    rw [addNodes, List.foldl_cons, ← addNodes, hnode, ih (k := { k with roots := n :: k.roots }) h]
    simp

/-- A plain text becomes a node when it is flushed. -/
lemma flush_step_text (ht : IsPlainText t) (hk : k.pending = []) :
    (k.step (.text t)).flush = k.addNode (.text t) := by
  obtain ⟨stack, roots, pending, awaited⟩ := k
  obtain rfl : pending = [] := hk
  have hne : t.isEmpty = false := by
    cases t with
    | nil => exact absurd ht.shows (by decide)
    | cons c t => rfl
  have hnode : ∀ names, nodeText names t = t := by
    intro names
    rw [nodeText, ht.shows]
    rfl
  simp [step, flush, addText, hne, hnode]

/-- A start tag opens an element behind the text that was pending. -/
lemma step_start (hname : voidElements.contains name = false) (k : Construction) :
    k.step (.start name [] false) =
      { k.flush with stack := ⟨name, [], []⟩ :: k.flush.stack } := by
  rw [step, start, if_neg Bool.false_ne_true, hname, if_neg Bool.false_ne_true]

/-- The start tag of an element without content adds it and waits for its end tag. -/
lemma step_void (hname : voidElements.contains name = true) (k : Construction) :
    k.step (.start name [] false) =
      (k.flush.addNode (.element name [] [])).withAwaited (name :: k.awaited) := by
  rw [← awaited_flush k, step, start, if_neg Bool.false_ne_true, if_pos hname]
  rfl

/-- An end tag closes the innermost open element if it is of its name. -/
lemma step_finish (hname : k.awaited.contains name = false) {nodes : List Node}
    (h : k.flush.stack = ⟨name, [], nodes⟩ :: stack) :
    k.step (.finish name) =
      { k.flush with stack := stack }.addNode (.element name [] nodes.reverse) := by
  have hfound : k.flush.stack.findIdx? (·.name = name) = some 0 := by
    rw [h, List.findIdx?_cons]
    simp
  rw [step, finish, hname, if_neg Bool.false_ne_true, closeNamed, hfound]
  simp only [close, closeInnermost, h]

/-- An end tag finds its element open, with the nodes in it that have been added since its start tag. -/
lemma step_finish_of_children {inner : Construction} {children : List Node}
    (hname : voidElements.contains name = false) (hnames : AwaitsVoid names)
    (h : inner.flush = ((k.step (.start name [] false)).addNodes children).withAwaited names) :
    inner.step (.finish name) =
      (k.flush.addNode (.element name [] children)).withAwaited names := by
  rw [step_start hname, addNodes_of_open rfl] at h
  have hwaits : inner.awaited = names := by
    rw [← awaited_flush, h]
    rfl
  have hclosed : inner.awaited.contains name = false := by
    rw [← Bool.not_eq_true, List.contains_iff_mem, hwaits]
    intro hmem
    have hvoid := hnames name hmem
    rw [hname] at hvoid
    cases hvoid
  have hstack : inner.flush.stack = ⟨name, [], children.reverse⟩ :: k.flush.stack := by
    rw [h]
    simp [withAwaited]
  rw [step_finish hclosed hstack, h, List.reverse_reverse, ← addNode_withAwaited]
  rfl

/-- The events of a forest add its nodes. -/
lemma exists_reads (h : IsMarkup ns t) (rest : Text) (hrest : EndsText rest) :
    ∃ es, Reads (t ++ rest) es rest ∧
      ∀ k : Construction, AwaitsVoid k.awaited → k.pending = [] ∨ BeginsWithTag ns →
        ∃ names, AwaitsVoid names ∧
          (es.foldl step k).flush = (k.flush.addNodes ns).withAwaited names := by
  induction h generalizing rest with
  | nil =>
    refine ⟨[], Reads.refl rest, fun k hk _ => ⟨k.awaited, hk, ?_⟩⟩
    rw [← awaited_flush]
    rfl
  | @text t u ns ht hns hu ih =>
    obtain ⟨es, hreads, hes⟩ := ih rest hrest
    refine ⟨.text t :: es, ?_, fun k hk hfirst => ?_⟩
    · rw [List.append_assoc]
      exact (reads_text ht (hu.endsText_append hns hrest)).trans hreads
    · have hpending := hfirst.resolve_right fun hno => hno t rfl
      have hflush := flush_step_text ht hpending
      have hawaited : (k.step (.text t)).awaited = k.awaited := by
        rw [← awaited_flush, hflush, awaited_addNode]
      obtain ⟨names, hnames, hrun⟩ := hes (k.step (.text t)) (by rwa [hawaited]) (Or.inr hns)
      refine ⟨names, hnames, ?_⟩
      rw [List.foldl_cons, hrun, hflush, flush_of_pending_nil hpending]
      rfl
  | @element name inner u children ns hname hvoid _ _ ihchildren ih =>
    obtain ⟨es, hreads, hes⟩ := ih rest hrest
    obtain ⟨inside, hinside, hchildren⟩ :=
      ihchildren ('<' :: '/' :: (name ++ '>' :: (u ++ rest))) (Or.inr rfl)
    refine ⟨.start name [] false :: (inside ++ .finish name :: es), ?_, fun k hk _ => ?_⟩
    · have htext : '<' :: (name ++ '>' :: (inner ++ '<' :: '/' :: (name ++ '>' :: u))) ++ rest =
          '<' :: (name ++ '>' :: (inner ++ '<' :: '/' :: (name ++ '>' :: (u ++ rest)))) := by simp
      rw [htext]
      exact (reads_start hname _).trans (hinside.trans ((reads_finish hname _).trans hreads))
    · have hopen := step_start hvoid k
      have hpending : (k.step (.start name [] false)).pending = [] := by
        rw [hopen]
        exact pending_flush k
      have hawaited : AwaitsVoid (k.step (.start name [] false)).awaited := by
        rw [hopen]
        exact (awaited_flush k).symm ▸ hk
      obtain ⟨names, hnames, hrun⟩ := hchildren _ hawaited (Or.inl hpending)
      set inner := inside.foldl step (k.step (.start name [] false)) with hinner
      rw [flush_of_pending_nil hpending] at hrun
      have hfinish := step_finish_of_children hvoid hnames hrun
      -- the end tag closes the element, so the text behind it starts anew
      have hpending' : (inner.step (.finish name)).pending = [] := by
        rw [hfinish]
        exact (pending_addNode _ _).trans (pending_flush k)
      have hawaited' : AwaitsVoid (inner.step (.finish name)).awaited := by
        rw [hfinish]
        exact hnames
      obtain ⟨names', hnames', hrun'⟩ := hes _ hawaited' (Or.inl hpending')
      refine ⟨names', hnames', ?_⟩
      rw [List.foldl_cons, List.foldl_append, List.foldl_cons, ← hinner, hrun',
        flush_of_pending_nil hpending', hfinish, addNodes_withAwaited]
      rfl
  | @void name u ns hname hvoid _ ih =>
    obtain ⟨es, hreads, hes⟩ := ih rest hrest
    refine ⟨.start name [] false :: es, ?_, fun k hk _ => ?_⟩
    · have htext : '<' :: (name ++ '>' :: u) ++ rest = '<' :: (name ++ '>' :: (u ++ rest)) := by simp
      rw [htext]
      exact (reads_start hname _).trans hreads
    · have hstep := step_void hvoid k
      have hpending : (k.step (.start name [] false)).pending = [] := by
        rw [hstep]
        exact (pending_addNode _ _).trans (pending_flush k)
      have hawaited : AwaitsVoid (k.step (.start name [] false)).awaited := by
        rw [hstep]
        exact List.forall_mem_cons.mpr ⟨hvoid, hk⟩
      obtain ⟨names, hnames, hrun⟩ := hes _ hawaited (Or.inl hpending)
      refine ⟨names, hnames, ?_⟩
      rw [List.foldl_cons, hrun, flush_of_pending_nil hpending, hstep, addNodes_withAwaited]
      rfl

end Construction

/-- Plain markup is read back. -/
lemma IsMarkup.parse_eq (h : IsMarkup ns t) : parse t = ns := by
  obtain ⟨es, hreads, hes⟩ := Construction.exists_reads h [] (Or.inl rfl)
  rw [List.append_nil] at hreads
  obtain ⟨names, -, hrun⟩ := hes {} (by simp [Construction.AwaitsVoid]) (Or.inl rfl)
  have hforest : (es.foldl Construction.step {}).flush =
      { ({} : Construction) with roots := ns.reverse, awaited := names } := by
    rw [hrun, Construction.flush_of_pending_nil rfl, Construction.addNodes_of_stack_nil rfl,
      List.append_nil]
    rfl
  rw [parse, hreads.events_eq, Construction.forest, hforest]
  exact List.reverse_reverse ns

end Html

end Ambient
