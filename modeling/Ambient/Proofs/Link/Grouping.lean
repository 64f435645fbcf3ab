import Mathlib
import Ambient.Link.Check
import Ambient.Proofs.Table
import Ambient.Proofs.Text.Lines
import Ambient.Proofs.Text.Order

/-!
# Links by page

A link leads to the page in front of its first number sign, and to the anchor behind it if there is
one (`LeadsTo`).  `Groups links t` says what grouping is meant to give: the pages of the links, each
once and in the order of their first links, with the anchors named on them in ascending order.  It
speaks of the links as a set, and only one table satisfies it (`Groups.unique`).  Adding one more
link behind all others keeps it (`Groups.addTo`), so the table made of the sorted links has it
(`groups_pages`).

The first link to a page need not be the page itself.  Where it is one to an anchor, a page whose
name goes on with a character below the number sign comes first (`pairwise_lt_pages_iff`).
-/

namespace Ambient

namespace Link

open Table (keys)

variable {links links' : List Text} {link page page' anchor anchor' : Text} {anchors : List Text}
  {t t' : Table (List Text)}

/-! ### Pages and anchors -/

/-- A link is a page, or a page and behind a number sign an anchor on it. -/
def LeadsTo (link page anchor : Text) : Prop :=
  '#' ∉ page ∧ (link = page ∧ anchor = [] ∨ link = page ++ '#' :: anchor)

/-- A link leads to what stands in front of its first number sign and behind it. -/
lemma leadsTo_iff :
    LeadsTo link page anchor ↔
      (Text.cutAt '#' link).1 = page ∧ (Text.cutAt '#' link).2.getD [] = anchor := by
  constructor
  · rintro ⟨hpage, ⟨rfl, rfl⟩ | rfl⟩
    · rw [Text.cutAt_of_not_mem hpage]
      exact ⟨rfl, rfl⟩
    · rw [Text.cutAt_eq_some.mpr ⟨hpage, rfl⟩]
      exact ⟨rfl, rfl⟩
  · rintro ⟨rfl, rfl⟩
    by_cases hmark : '#' ∈ link
    · obtain ⟨before, behind, rfl, hbefore⟩ := List.eq_append_cons_of_mem hmark
      rw [Text.cutAt_eq_some.mpr ⟨hbefore, rfl⟩]
      exact ⟨hbefore, Or.inr rfl⟩
    · rw [Text.cutAt_of_not_mem hmark]
      exact ⟨hmark, Or.inl ⟨rfl, rfl⟩⟩

lemma exists_leadsTo (link : Text) : ∃ page anchor, LeadsTo link page anchor :=
  ⟨_, _, leadsTo_iff.mpr ⟨rfl, rfl⟩⟩

/-- A link leads to one page, and to one anchor on it. -/
lemma LeadsTo.unique (h : LeadsTo link page anchor) (h' : LeadsTo link page' anchor') :
    page' = page ∧ anchor' = anchor := by
  obtain ⟨rfl, rfl⟩ := leadsTo_iff.mp h
  obtain ⟨rfl, rfl⟩ := leadsTo_iff.mp h'
  exact ⟨rfl, rfl⟩

/-- The link to an anchor is the page with the anchor behind it. -/
lemma LeadsTo.eq_of_ne_nil (h : LeadsTo link page anchor) (hne : anchor ≠ []) :
    link = page ++ '#' :: anchor :=
  h.2.resolve_left fun hpage => hne hpage.2

/-! ### What grouping gives -/

/-- One of the links to a page comes before all links to another page. -/
def Precedes (links : List Text) (page page' : Text) : Prop :=
  ∃ link ∈ links, (∃ anchor, LeadsTo link page anchor) ∧
    ∀ link' ∈ links, (∃ anchor, LeadsTo link' page' anchor) → link < link'

/-- A table has the pages of some links in the order of their first links, and with each page the
anchors that the links name on it. -/
structure Groups (links : List Text) (t : Table (List Text)) : Prop where
  mem_keys : ∀ {page}, page ∈ keys t ↔ ∃ link ∈ links, ∃ anchor, LeadsTo link page anchor
  precedes : (keys t).Pairwise (Precedes links)
  mem_anchors : ∀ {page anchors}, (page, anchors) ∈ t → ∀ {anchor},
    anchor ∈ anchors ↔ anchor ≠ [] ∧ ∃ link ∈ links, LeadsTo link page anchor
  ascending : ∀ {page anchors}, (page, anchors) ∈ t → anchors.Pairwise (· < ·)

instance (links : List Text) : Std.Irrefl (Precedes links) where
  irrefl _ := fun ⟨link, hlink, hleads, hfirst⟩ => lt_irrefl link (hfirst link hlink hleads)

instance (links : List Text) : Std.Antisymm (Precedes links) where
  antisymm _ _ := fun ⟨link, hlink, hleads, hfirst⟩ ⟨link', hlink', hleads', hfirst'⟩ =>
    absurd (hfirst link' hlink' hleads') (lt_asymm (hfirst' link hlink hleads))

/-- No page is listed twice, since none precedes itself. -/
lemma Groups.nodup (h : Groups links t) : (keys t).Nodup := by
  refine h.precedes.imp fun {page page'} hprecedes (heq : page = page') => ?_
  subst heq
  exact irrefl page hprecedes

/-- It is the set of the links that matters. -/
lemma Groups.congr (h : Groups links t) (hlinks : ∀ link, link ∈ links ↔ link ∈ links') :
    Groups links' t := by
  obtain ⟨hkeys, hprecedes, hanchors, hascending⟩ := h
  unfold Precedes at hprecedes
  simp only [hlinks] at hkeys hprecedes hanchors
  exact ⟨hkeys, hprecedes, hanchors, hascending⟩

/-- The anchors on a page are settled by the links. -/
lemma Groups.anchors_eq (h : Groups links t) (h' : Groups links t')
    {anchors' : List Text} (hmem : (page, anchors) ∈ t) (hmem' : (page, anchors') ∈ t') :
    anchors = anchors' :=
  (h.ascending hmem).eq_of_mem_iff (h'.ascending hmem') fun _ =>
    (h.mem_anchors hmem).trans (h'.mem_anchors hmem').symm

/-- Links are grouped in one way only. -/
lemma Groups.unique (h : Groups links t) (h' : Groups links t') : t = t' := by
  have hkeys : keys t = keys t' :=
    h.precedes.eq_of_mem_iff h'.precedes fun _ => h.mem_keys.trans h'.mem_keys.symm
  have hlength : t.length = t'.length := by simpa [keys] using congrArg List.length hkeys
  refine List.ext_getElem hlength fun i hi hi' => ?_
  have hpage : (t[i]).1 = (t'[i]).1 := by
    have hget := congrArg (·[i]?) hkeys
    simpa [keys, hi, hi'] using hget
  have hmem' : ((t[i]).1, (t'[i]).2) ∈ t' := hpage ▸ List.getElem_mem hi'
  exact Prod.ext hpage (h.anchors_eq h' (List.getElem_mem hi) hmem')

/-! ### Grouping -/

lemma groups_nil : Groups [] [] where
  mem_keys := by simp [keys]
  precedes := .nil
  mem_anchors := by simp
  ascending := by simp

/-- The anchors with one more anchor, unless it is empty or among them. -/
def withAnchor (anchors : List Text) (anchor : Text) : List Text :=
  if anchor.isEmpty || anchors.contains anchor then anchors else anchors ++ [anchor]

lemma mem_withAnchor :
    anchor' ∈ withAnchor anchors anchor ↔ anchor' ∈ anchors ∨ anchor ≠ [] ∧ anchor' = anchor := by
  unfold withAnchor
  cases anchor with
  | nil => simp
  | cons c anchor =>
    split_ifs with h
    · have hmem : c :: anchor ∈ anchors := by simpa using h
      constructor
      · exact Or.inl
      · rintro (hanchor | ⟨-, rfl⟩)
        · exact hanchor
        · exact hmem
    · simp

/-- The anchors that a table has for a page. -/
def anchorsOf (t : Table (List Text)) (page : Text) : List Text :=
  (Table.get? t page).getD []

/-- Adding a link adds its anchor to those of its page. -/
lemma addTo_eq (h : LeadsTo link page anchor) :
    addTo t link = Table.insert t page (withAnchor (anchorsOf t page) anchor) := by
  obtain ⟨rfl, rfl⟩ := leadsTo_iff.mp h
  rfl

/-- The anchors of a page are those that the links name on it. -/
lemma Groups.mem_anchorsOf (h : Groups links t) :
    anchor ∈ anchorsOf t page ↔ anchor ≠ [] ∧ ∃ link ∈ links, LeadsTo link page anchor := by
  unfold anchorsOf
  cases hget : Table.get? t page with
  | none =>
    have hpage : page ∉ keys t := by
      intro hmem
      obtain ⟨⟨page, anchors⟩, hentry, rfl⟩ := List.mem_map.mp hmem
      rw [Table.get?, List.lookup_eq_none_iff] at hget
      simpa using hget _ hentry
    rw [h.mem_keys] at hpage
    constructor
    · intro hmem
      cases hmem
    · rintro ⟨-, link, hlink, hleads⟩
      exact absurd ⟨link, hlink, anchor, hleads⟩ hpage
  | some anchors => exact h.mem_anchors (Table.mem_of_get? hget)

/-- The anchors of a page are in ascending order. -/
lemma Groups.ascending_anchorsOf (h : Groups links t) (page : Text) :
    (anchorsOf t page).Pairwise (· < ·) := by
  unfold anchorsOf
  cases hget : Table.get? t page with
  | none => exact .nil
  | some anchors => exact h.ascending (Table.mem_of_get? hget)

/-- An anchor of the last link goes behind those that are there. -/
lemma Groups.ascending_withAnchor (h : Groups links t) (hleads : LeadsTo link page anchor)
    (hlast : ∀ link' ∈ links, ¬ link < link') :
    (withAnchor (anchorsOf t page) anchor).Pairwise (· < ·) := by
  have hascending := h.ascending_anchorsOf page
  unfold withAnchor
  split_ifs with hanchor
  · exact hascending
  · obtain ⟨hne, hnew⟩ : anchor ≠ [] ∧ anchor ∉ anchorsOf t page := by simpa using hanchor
    rw [List.pairwise_append]
    refine ⟨hascending, List.pairwise_singleton _ _, fun a ha b hb => ?_⟩
    obtain rfl := List.mem_singleton.mp hb
    obtain ⟨hne', link', hlink', hleads'⟩ := h.mem_anchorsOf.mp ha
    have hnot := hlast link' hlink'
    rw [hleads.eq_of_ne_nil hne, hleads'.eq_of_ne_nil hne', Text.append_lt_append_left_iff,
      List.cons_lt_cons_iff] at hnot
    have hdiff : a ≠ b := fun heq => hnew (heq ▸ ha)
    exact lt_of_le_of_ne (not_lt.mp fun hlt => hnot (Or.inr ⟨rfl, hlt⟩)) hdiff

/-- A page that preceded another one still does so when a later link comes. -/
lemma Precedes.append (h : Precedes links page page')
    (hpage' : ∃ link' ∈ links, ∃ anchor, LeadsTo link' page' anchor)
    (hlast : ∀ link' ∈ links, ¬ link < link') : Precedes (links ++ [link]) page page' := by
  obtain ⟨first, hmem, hleads, hfirst⟩ := h
  refine ⟨first, List.mem_append_left _ hmem, hleads, fun link' hlink' hleads' => ?_⟩
  rcases List.mem_append.mp hlink' with hlink' | hlink'
  · exact hfirst link' hlink' hleads'
  · obtain rfl := List.mem_singleton.mp hlink'
    obtain ⟨earlier, hearlier, hsame⟩ := hpage'
    exact lt_of_lt_of_le (hfirst earlier hearlier hsame) (not_lt.mp (hlast earlier hearlier))

/-- All pages precede one that a later link leads to for the first time. -/
lemma precedes_of_new (hpage : ∃ link' ∈ links, ∃ anchor, LeadsTo link' page anchor)
    (hnew : ¬ ∃ link' ∈ links, ∃ anchor, LeadsTo link' page' anchor)
    (hleads : LeadsTo link page' anchor) (hlast : ∀ link' ∈ links, ¬ link < link') :
    Precedes (links ++ [link]) page page' := by
  obtain ⟨first, hmem, hfirst⟩ := hpage
  refine ⟨first, List.mem_append_left _ hmem, hfirst, fun link' hlink' hleads' => ?_⟩
  rcases List.mem_append.mp hlink' with hlink' | hlink'
  · exact absurd ⟨link', hlink', hleads'⟩ hnew
  · obtain rfl := List.mem_singleton.mp hlink'
    have hne : first ≠ link' := by
      rintro rfl
      exact hnew ⟨first, hmem, hleads'⟩
    exact lt_of_le_of_ne (not_lt.mp (hlast first hmem)) hne

/-- One more link behind all others is added to the group of its page, or opens one. -/
lemma Groups.addTo (h : Groups links t) (hlast : ∀ link' ∈ links, ¬ link < link') :
    Groups (links ++ [link]) (addTo t link) := by
  obtain ⟨page, anchor, hleads⟩ := exists_leadsTo link
  rw [addTo_eq hleads]
  -- the entry of the page of the new link, and the entries of all other pages
  have hentry : ∀ {page' anchors}, (page', anchors) ∈
      Table.insert t page (withAnchor (anchorsOf t page) anchor) →
        page' = page ∧ anchors = withAnchor (anchorsOf t page) anchor ∨
          page' ≠ page ∧ (page', anchors) ∈ t := by
    intro page' anchors hmem
    by_cases hpage : page' = page
    · have heq := Table.eq_of_mem_insert h.nodup hmem hpage
      exact Or.inl ⟨hpage, congrArg Prod.snd heq⟩
    · have hold := (Table.mem_of_mem_insert hmem).resolve_left fun heq =>
        hpage (congrArg Prod.fst heq)
      exact Or.inr ⟨hpage, hold⟩
  refine ⟨?_, ?_, ?_, ?_⟩
  · intro page'
    rw [Table.mem_keys_insert, h.mem_keys]
    constructor
    · rintro (rfl | ⟨link', hlink', hleads'⟩)
      · exact ⟨link, by simp, anchor, hleads⟩
      · exact ⟨link', List.mem_append_left _ hlink', hleads'⟩
    · rintro ⟨link', hlink', anchor', hleads'⟩
      rcases List.mem_append.mp hlink' with hlink' | hlink'
      · exact Or.inr ⟨link', hlink', anchor', hleads'⟩
      · obtain rfl := List.mem_singleton.mp hlink'
        exact Or.inl (hleads.unique hleads').1
  · have hold : (keys t).Pairwise (Precedes (links ++ [link])) :=
      h.precedes.imp_of_mem fun _ hmem' hprecedes =>
        hprecedes.append (h.mem_keys.mp hmem') hlast
    rw [Table.keys_insert]
    split_ifs with hpage
    · exact hold
    · rw [List.pairwise_append]
      refine ⟨hold, List.pairwise_singleton _ _, fun page₁ hpage₁ page₂ hpage₂ => ?_⟩
      obtain rfl := List.mem_singleton.mp hpage₂
      exact precedes_of_new (h.mem_keys.mp hpage₁) (mt h.mem_keys.mpr hpage) hleads hlast
  · intro page' anchors hmem anchor'
    have hlinks : (∃ link' ∈ links ++ [link], LeadsTo link' page' anchor') ↔
        (∃ link' ∈ links, LeadsTo link' page' anchor') ∨ LeadsTo link page' anchor' := by
      simp [or_and_right, exists_or]
    rw [hlinks]
    rcases hentry hmem with ⟨rfl, rfl⟩ | ⟨hpage, hmem⟩
    · rw [mem_withAnchor, h.mem_anchorsOf, and_or_left]
      have hsame : LeadsTo link page' anchor' ↔ anchor' = anchor :=
        ⟨fun hleads' => (hleads.unique hleads').2, fun heq => heq ▸ hleads⟩
      rw [hsame]
      have hne : anchor ≠ [] ∧ anchor' = anchor ↔ anchor' ≠ [] ∧ anchor' = anchor := by
        constructor
        · rintro ⟨hne, rfl⟩
          exact ⟨hne, rfl⟩
        · rintro ⟨hne, rfl⟩
          exact ⟨hne, rfl⟩
      rw [hne]
    · rw [h.mem_anchors hmem, and_or_left, iff_self_or]
      exact fun ⟨_, hleads'⟩ => absurd (hleads.unique hleads').1 hpage
  · intro page' anchors hmem
    rcases hentry hmem with ⟨-, rfl⟩ | ⟨-, hmem⟩
    · exact h.ascending_withAnchor hleads hlast
    · exact h.ascending hmem

/-- Further links in ascending order are grouped one by one. -/
lemma groups_foldl {rest : List Text} (h : Groups links t)
    (hsorted : (links ++ rest).Pairwise fun a b => ¬ b < a) :
    Groups (links ++ rest) (rest.foldl addTo t) := by
  induction rest generalizing links t with
  | nil => rwa [List.append_nil]
  | cons link rest ih =>
    have happend : links ++ link :: rest = links ++ [link] ++ rest := by simp
    rw [happend] at hsorted ⊢
    have hlast : ∀ link' ∈ links, ¬ link < link' := fun link' hlink' =>
      (List.pairwise_append.mp (List.pairwise_append.mp hsorted).1).2.2 link' hlink' link (by simp)
    exact ih (h.addTo hlast) hsorted

/-- The pages of some links are these links in groups. -/
lemma groups_pages (links : List Text) : Groups links (pages links) := by
  have hsorted : Groups (Text.sorted links) (pages links) :=
    groups_foldl groups_nil (Text.pairwise_sorted links)
  exact hsorted.congr fun _ => Text.mem_sorted

/-- Links that are the same as a set are grouped in the same way. -/
lemma pages_congr (h : ∀ link, link ∈ links ↔ link ∈ links') : pages links = pages links' :=
  ((groups_pages links).congr h).unique (groups_pages links')

/-! ### The order of the pages -/

/-- A link begins with the page that it leads to. -/
lemma LeadsTo.exists_append (h : LeadsTo link page anchor) : ∃ u, link = page ++ u := by
  rcases h.2 with ⟨rfl, -⟩ | rfl
  · exact ⟨[], (List.append_nil _).symm⟩
  · exact ⟨'#' :: anchor, rfl⟩

/-- A page that is none of the links is linked by its anchors. -/
lemma LeadsTo.eq_of_not_mem (h : LeadsTo link page anchor) (hmem : link ∈ links)
    (hpage : page ∉ links) : link = page ++ '#' :: anchor :=
  h.2.resolve_left fun heq => hpage (heq.1 ▸ hmem)

/-- Where a page is linked by its anchors only, those come before a page that goes on with a greater
character than the number sign, and behind all others that continue the page. -/
lemma lt_of_precedes_append {c : Char} {rest : Text}
    (h : Precedes links page (page ++ c :: rest)) (hpage : page ∉ links)
    (hlinked : ∃ link ∈ links, ∃ anchor, LeadsTo link (page ++ c :: rest) anchor) : '#' < c := by
  obtain ⟨first, hmem, ⟨anchor, hleads⟩, hfirst⟩ := h
  obtain ⟨link, hlink, anchor', hleads'⟩ := hlinked
  obtain ⟨u, rfl⟩ := hleads'.exists_append
  have hlt := hfirst _ hlink ⟨anchor', hleads'⟩
  rw [hleads.eq_of_not_mem hmem hpage, List.append_assoc, Text.append_lt_append_left_iff,
    List.cons_append, List.cons_lt_cons_iff] at hlt
  rcases hlt with hlt | ⟨rfl, -⟩
  · exact hlt
  · exact absurd hleads'.1 (by simp)

/-- The page that comes first is the smaller one, unless it continues the other one in this way. -/
lemma lt_of_precedes (h : Precedes links page page')
    (hlinked : ∃ link ∈ links, ∃ anchor, LeadsTo link page' anchor)
    (habove : page' ∉ links → ∀ c rest, page = page' ++ c :: rest → '#' < c) : page < page' := by
  obtain ⟨first, hmem, ⟨anchor, hleads⟩, hfirst⟩ := id h
  obtain ⟨link, hlink, anchor', hleads'⟩ := hlinked
  have hlt : first < link := hfirst link hlink ⟨anchor', hleads'⟩
  obtain ⟨u, rfl⟩ := hleads.exists_append
  rcases lt_trichotomy page page' with hless | rfl | hgreater
  · exact hless
  · exact absurd h (irrefl page)
  · exfalso
    rcases Text.lt_iff.mp hgreater with ⟨c, rest, rfl⟩ | hdiverges
    · rw [List.append_assoc] at hlt
      by_cases hpage : page' ∈ links
      · have hself := hfirst page' hpage ⟨[], hleads'.1, Or.inl ⟨rfl, rfl⟩⟩
        rw [List.append_assoc] at hself
        exact lt_asymm hself (Text.lt_append_cons page' c (rest ++ u))
      · have hc : '#' < c := habove hpage c rest rfl
        rw [hleads'.eq_of_not_mem hlink hpage, Text.append_lt_append_left_iff, List.cons_append,
          List.cons_lt_cons_iff] at hlt
        rcases hlt with hlt | ⟨rfl, -⟩
        · exact lt_asymm hc hlt
        · exact lt_irrefl _ hc
    · obtain ⟨v, rfl⟩ := hleads'.exists_append
      exact lt_asymm hlt (hdiverges.append v u).lt

/-- The pages come in the order of their first links.  They are in ascending order themselves exactly
if no page that is linked by its anchors only is continued by another page with a character below
the number sign. -/
theorem pairwise_lt_pages_iff (links : List Text) :
    (keys (pages links)).Pairwise (Precedes links) ∧
      ((keys (pages links)).Pairwise (· < ·) ↔
        ∀ page ∈ keys (pages links), page ∉ links →
          ∀ c rest, page ++ c :: rest ∈ keys (pages links) → '#' < c) := by
  have h := groups_pages links
  refine ⟨h.precedes, fun hascending page hpage hnot c rest hcontinued => ?_, fun habove => ?_⟩
  · obtain ⟨i, hi, rfl⟩ := List.getElem_of_mem hpage
    obtain ⟨j, hj, hget⟩ := List.getElem_of_mem hcontinued
    have hlt : (keys (pages links))[i] < (keys (pages links))[j] := by
      rw [hget]
      exact Text.lt_append_cons _ c rest
    -- of two pages the smaller one is the first in an ascending list
    have hij : i < j := by
      rcases lt_trichotomy i j with hij | rfl | hji
      · exact hij
      · exact absurd hlt (lt_irrefl _)
      · exact absurd (List.pairwise_iff_getElem.mp hascending j i hj hi hji) (lt_asymm hlt)
    have hprecedes := List.pairwise_iff_getElem.mp h.precedes i j hi hj hij
    rw [hget] at hprecedes
    exact lt_of_precedes_append hprecedes hnot (h.mem_keys.mp hcontinued)
  · refine h.precedes.imp_of_mem fun {page page'} hpage hpage' hprecedes => ?_
    refine lt_of_precedes hprecedes (h.mem_keys.mp hpage') fun hnot c rest heq => ?_
    exact habove page' hpage' hnot c rest (heq ▸ hpage)

/-- A page linked by an anchor, and one that continues its name with a mark below the number sign. -/
theorem not_pairwise_lt_pages_exclaimed :
    ¬ (keys (pages ["https://docs.example/list!", "https://docs.example/list#add"])).Pairwise
      (· < ·) := by
  have hpages : keys (pages ["https://docs.example/list!", "https://docs.example/list#add"]) =
      [("https://docs.example/list!" : Text), ("https://docs.example/list" : Text)] := by
    cbv
  rw [hpages]
  decide

end Link

end Ambient
