import Mathlib
import Ambient.Proofs.Link.Grouping
import Ambient.Proofs.Run

/-!
# What a check reports and fetches

A document has a link wherever one of its objects names one, at any depth (`HasLink`), and collecting
finds exactly those (`mem_ofValue`).  A check looks at the pages of the links one after another, so
it depends on the set of links alone.  To see what it fetches, the check is made with any way of
fetching (`checkBy`); with one that notes down the pages it gives the same reports and fetches the
pages that have anchors in their order, up to the first that fails (`exists_run_checkBy`).
-/

namespace Ambient

namespace Link

open Table (keys)

variable {web : Table Page} {document document' v : Json} {link page : Text} {anchors : List Text}

/-! ### The links of a document -/

/-- An object names a link, or has a member other than its link in which one is named. -/
inductive HasLink : Json → Text → Prop
  | own {members : List (Text × Json)} {v : Json} :
      Table.get? members "!url" = some v → v.isPresent = true → HasLink (.object members) v.display
  | inner {members : List (Text × Json)} {key : Text} {v : Json} {link : Text} :
      (key, v) ∈ members → key ≠ "!url" → HasLink v link → HasLink (.object members) link

/-- The links of the members of an object are those of its members, its own link apart. -/
lemma mem_ofValue : link ∈ ofValue v ↔ HasLink v link := by
  revert link
  -- a value, the members of an object, and one member are treated together
  refine ofValue.induct (fun v => ∀ {link}, link ∈ ofValue v ↔ HasLink v link)
    (fun ms => ∀ {link}, link ∈ ofMembers ms ↔ ∃ m ∈ ms, m.1 ≠ "!url" ∧ HasLink m.2 link)
    (fun m => ∀ {link}, link ∈ ofMember m ↔ m.1 ≠ "!url" ∧ HasLink m.2 link)
    ?object ?other ?nil ?cons ?url ?member v
  case object =>
    intro members ih link
    rw [ofValue, List.mem_append, ih]
    constructor
    · rintro (hown | ⟨⟨key, v⟩, hmem, hkey, hlink⟩)
      · split at hown
        · next v hget =>
          split_ifs at hown with hpresent
          · obtain rfl := List.mem_singleton.mp hown
            exact .own hget hpresent
          · cases hown
        · cases hown
      · exact .inner hmem hkey hlink
    · rintro (⟨hget, hpresent⟩ | ⟨hmem, hkey, hlink⟩)
      · left
        rw [hget]
        simp [hpresent]
      · exact Or.inr ⟨_, hmem, hkey, hlink⟩
  case other =>
    intro v hv link
    rw [ofValue.eq_2 v hv]
    constructor
    · intro hmem
      cases hmem
    · rintro (_ | _) <;> exact absurd rfl (hv _)
  case nil => simp [ofMembers]
  case cons =>
    intro m ms hm hms link
    rw [ofMembers, List.mem_append, hm, hms]
    simp
  case url =>
    intro v link
    simp [ofMember]
  case member =>
    intro key v hkey ih link
    rw [ofMember, if_neg hkey, ih]
    exact (and_iff_right hkey).symm

/-! ### Fetching -/

/-- The report on one page, with any way of fetching its text. -/
def reportBy {m : Type → Type} [Monad m] (fetch : Text → m Text) (page : Text)
    (anchors : List Text) : m Report :=
  if !Address.isWeb page then return { page, isUnreachable := true }
  else if anchors.isEmpty then return { page }
  else return { page, missing := missingAnchors (← fetch page) anchors }

/-- The reports on all pages that a document links to, with any way of fetching their texts. -/
def checkBy {m : Type → Type} [Monad m] (fetch : Text → m Text) (document : Json) :
    m (List Report) :=
  (pages (ofValue document)).mapM fun p => reportBy fetch p.1 p.2

/-- A check is one that fetches pages from the web. -/
lemma checkBy_fetchText (web : Table Page) (document : Json) :
    checkBy (Page.fetchText web none) document = check web document :=
  rfl

/-- Fetching that notes down every page it is asked for, whether it gets the page or not. -/
def fetchNoted (web : Table Page) (page : Text) : ExceptT Failure (StateM (List Text)) Text :=
  ExceptT.mk fun noted => (Page.fetchText web none page, noted ++ [page])

/-- A second step goes on with what the first one noted down. -/
lemma run_bind {α β : Type} (x : ExceptT Failure (StateM (List Text)) α)
    (f : α → ExceptT Failure (StateM (List Text)) β) (noted : List Text) :
    (x >>= f).run noted =
      match x.run noted with
      | (.ok a, noted') => (f a).run noted'
      | (.error failure, noted') => (.error failure, noted') := by
  have hbind : (x >>= f).run noted = ExceptT.bindCont f (x.run noted).1 (x.run noted).2 := rfl
  rw [hbind]
  rcases x.run noted with ⟨_ | _, noted'⟩ <;> rfl

/-- The report on a page is the same whether fetching is noted down or not, and the page is noted down
exactly if it needs fetching. -/
lemma run_reportBy (web : Table Page) (page : Text) (anchors noted : List Text) :
    (reportBy (fetchNoted web) page anchors).run noted =
      (reportBy (Page.fetchText web none) page anchors,
        noted ++ if needsFetch page anchors then [page] else []) := by
  unfold reportBy needsFetch
  cases Address.isWeb page with
  | false => exact congrArg (Prod.mk _) (List.append_nil noted).symm
  | true =>
    cases anchors.isEmpty with
    | true => exact congrArg (Prod.mk _) (List.append_nil noted).symm
    | false =>
      unfold fetchNoted
      cases Page.fetchText web none page <;> rfl

/-- The pages among some that a check fetches. -/
def fetchedOf (ps : Table (List Text)) : List Text :=
  (ps.filter fun p => needsFetch p.1 p.2).map Prod.fst

/-- The first page comes first among those that are fetched. -/
lemma fetchedOf_cons (p : Text × List Text) (ps : Table (List Text)) :
    fetchedOf (p :: ps) = (if needsFetch p.1 p.2 then [p.1] else []) ++ fetchedOf ps := by
  unfold fetchedOf
  cases hneeds : needsFetch p.1 p.2 <;> simp [hneeds]

/-- Making the reports on some pages fetches those that need it in their order, and stops at the
first failure. -/
lemma exists_run_mapM (web : Table Page) (ps : Table (List Text)) (noted : List Text) :
    ∃ done, (ps.mapM fun p => reportBy (fetchNoted web) p.1 p.2).run noted =
        (ps.mapM fun p => reportBy (Page.fetchText web none) p.1 p.2, noted ++ done) ∧
      done <+: fetchedOf ps ∧
      ((∃ reports, (ps.mapM fun p => reportBy (Page.fetchText web none) p.1 p.2) = .ok reports) →
        done = fetchedOf ps) := by
  induction ps generalizing noted with
  | nil => exact ⟨[], congrArg (Prod.mk _) (List.append_nil noted).symm, List.prefix_rfl, fun _ => rfl⟩
  | cons p ps ih =>
    have hrun := run_reportBy web p.1 p.2 noted
    rw [List.mapM_cons, List.mapM_cons, fetchedOf_cons]
    generalize (if needsFetch p.1 p.2 then [p.1] else []) = first at hrun ⊢
    rw [run_bind, hrun]
    cases reportBy (Page.fetchText web none) p.1 p.2 with
    | error failure =>
      exact ⟨first, rfl, List.prefix_append _ _, fun ⟨_, hreports⟩ => by cases hreports⟩
    | ok report =>
      obtain ⟨done, hdone, hstarts, hall⟩ := ih (noted ++ first)
      refine ⟨first ++ done, ?_, (List.prefix_append_right_inj first).mpr hstarts, ?_⟩
      · dsimp only
        rw [run_bind, hdone, List.append_assoc]
        cases ps.mapM fun p => reportBy (Page.fetchText web none) p.1 p.2 <;> rfl
      · rintro ⟨reports, hreports⟩
        obtain ⟨_, -, hreports⟩ := Except.bind_eq_ok.mp hreports
        obtain ⟨rest, hrest, -⟩ := Except.bind_eq_ok.mp hreports
        rw [hall ⟨rest, hrest⟩]

/-- A check that notes down what it fetches gives the reports of the check, and fetches the pages
with anchors in their order; it stops at the first that fails. -/
lemma exists_run_checkBy (web : Table Page) (document : Json) :
    ∃ done, (checkBy (fetchNoted web) document).run [] = (check web document, done) ∧
      done <+: fetched document ∧
      ((∃ reports, check web document = .ok reports) → done = fetched document) := by
  obtain ⟨done, hrun, hdone⟩ := exists_run_mapM web (pages (ofValue document)) []
  rw [List.nil_append] at hrun
  rw [← checkBy_fetchText]
  exact ⟨done, hrun, hdone⟩

/-- No page is fetched that is not linked to. -/
lemma fetched_sublist (document : Json) :
    (fetched document).Sublist (keys (pages (ofValue document))) :=
  List.filter_sublist.map Prod.fst

/-! ### Reports -/

/-- The report on a page names it. -/
lemma page_of_checkPage {r : Report} (h : checkPage web page anchors = .ok r) : r.page = page := by
  unfold checkPage at h
  split_ifs at h
  · rw [← Except.pure_eq_ok.mp h]
  · rw [← Except.pure_eq_ok.mp h]
  · obtain ⟨html, -, hreport⟩ := Except.bind_eq_ok.mp h
    rw [← Except.pure_eq_ok.mp hreport]

/-- There is one report for each page. -/
lemma pages_of_check {reports : List Report} (h : check web document = .ok reports) :
    reports.map Report.page = keys (pages (ofValue document)) := by
  have hreports := Except.mapM_eq_ok.mp h
  have hsame : List.Forall₂ Eq (reports.map Report.page) (keys (pages (ofValue document))) :=
    List.rel_map (fun r p hpage => page_of_checkPage hpage) hreports.flip
  rwa [List.forall₂_eq_eq_eq] at hsame

/-- Grouping depends on the set of links alone, and gives each page once with its anchors in
ascending order; so the check of a document depends on the set of its links alone, reports every page
once and fetches none twice. -/
theorem check_congr (links links' : List Text) (web : Table Page) (document document' : Json) :
    Groups links (pages links) ∧ (keys (pages links)).Nodup ∧
      ((∀ link, link ∈ links ↔ link ∈ links') → pages links = pages links') ∧
      (∀ link, link ∈ ofValue document ↔ HasLink document link) ∧
      ((∀ link, link ∈ ofValue document ↔ link ∈ ofValue document') →
        check web document = check web document') ∧
      (∀ reports, check web document = .ok reports →
        reports.map Report.page = keys (pages (ofValue document))) ∧
      ∃ done, (checkBy (fetchNoted web) document).run [] = (check web document, done) ∧
        done.Nodup ∧ done <+: fetched document ∧
        ((∃ reports, check web document = .ok reports) → done = fetched document) := by
  have hgroups := groups_pages links
  refine ⟨hgroups, hgroups.nodup, pages_congr, fun _ => mem_ofValue, fun hlinks => ?_,
    fun _ => pages_of_check, ?_⟩
  · rw [check, pages_congr hlinks, check]
  · obtain ⟨done, hrun, hstarts, hall⟩ := exists_run_checkBy web document
    have hnodup := (groups_pages (ofValue document)).nodup
    exact ⟨done, hrun, (hstarts.sublist.trans (fetched_sublist document)).nodup hnodup, hstarts, hall⟩

/-- A symbol with a link of its own, and a member with another one. -/
def alertDocument : Json :=
  .object [("Alert", .object [("!url", .text "https://docs.example/alert/"),
    ("present", .object [("!url", .text "https://docs.example/alert/#present")])])]

/-- The same two links in another order, side by side, one of them twice. -/
def flatAlertDocument : Json :=
  .object [("present", .object [("!url", .text "https://docs.example/alert/#present")]),
    ("cancel", .object [("!url", .text "https://docs.example/alert/#present")]),
    ("Alert", .object [("!url", .text "https://docs.example/alert/")])]

/-- The same two links, side by side and one inside the other. -/
theorem check_congr_flatAlertDocument :
    (∀ link, link ∈ ofValue alertDocument ↔ link ∈ ofValue flatAlertDocument) ∧
      pages (ofValue alertDocument) = pages (ofValue flatAlertDocument) ∧
      ∀ web, check web alertDocument = check web flatAlertDocument := by
  have hlinks : ∀ link, link ∈ ofValue alertDocument ↔ link ∈ ofValue flatAlertDocument := by
    have hdocument : ofValue alertDocument =
        [("https://docs.example/alert/" : Text), ("https://docs.example/alert/#present" : Text)] := by
      cbv
    have hflat : ofValue flatAlertDocument =
        [("https://docs.example/alert/#present" : Text), ("https://docs.example/alert/#present" : Text),
          ("https://docs.example/alert/" : Text)] := by
      cbv
    intro link
    rw [hdocument, hflat]
    simp only [List.mem_cons, List.not_mem_nil, or_false]
    rw [← or_assoc, or_self]
    exact or_comm
  have hcongr := fun web => check_congr (ofValue alertDocument) (ofValue flatAlertDocument) web
    alertDocument flatAlertDocument
  exact ⟨hlinks, (hcongr []).2.2.1 hlinks, fun web => (hcongr web).2.2.2.2.1 hlinks⟩

end Link

end Ambient
