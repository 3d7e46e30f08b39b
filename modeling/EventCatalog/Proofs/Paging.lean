import EventCatalog.Proofs.Visibility

/-!
# Following hints

A page that is not the last one says where to go on (`Page.nextOffset`). A client that asks for the first
page, and then again and again for the page at the offset that the one before names, follows the hints
(`Catalog.FollowsHints`). It comes to an end, and there is only one way to go (`FollowsHints.unique`).

The hint of a page names the place behind the first event that is left, so between each page and the
next one event is passed over. With pages of `k` events the client is shown the matches in their order
without every `(k + 1)`-th of them (`Catalog.followed_pages`), and all of them only if they fit on one page.

The proof follows a suffix of the matches. What is left of it behind a page and the event that is passed
over is again such a suffix, which starts at a multiple of `k + 1` (`withoutEvery_eq`).
-/

namespace EventCatalog

/-! ### A list without every n-th element -/

/-- The elements of a list without those at every `n`-th place. The first element stands at the place
`start`, counted from zero. -/
def withoutEvery {α : Type} (n start : Nat) (l : List α) : List α :=
  ((l.zipIdx start).filter fun p => (p.2 + 1) % n != 0).map Prod.fst

/-- Fewer than `n` elements from a multiple of `n` on are all kept. -/
theorem withoutEvery_of_le {α : Type} {k start : Nat} {l : List α} (hstart : (k + 1) ∣ start)
    (hlength : l.length ≤ k) : withoutEvery (k + 1) start l = l := by
  have hkept : (l.zipIdx start).filter (fun p => (p.2 + 1) % (k + 1) != 0) = l.zipIdx start := by
    refine List.filter_eq_self.2 fun p hp => ?_
    obtain ⟨hge, hlt, -⟩ := List.mem_zipIdx hp
    obtain ⟨m, rfl⟩ := hstart
    -- the place is `(k + 1) * m + i` for some `i < k`
    obtain ⟨i, hi⟩ := Nat.exists_eq_add_of_le hge
    have hmod : (p.2 + 1) % (k + 1) = i + 1 := by
      rw [hi, Nat.add_assoc, Nat.mul_add_mod, Nat.mod_eq_of_lt (by omega)]
    rw [hmod]
    exact bne_iff_ne.2 (Nat.succ_ne_zero i)
  rw [withoutEvery, hkept, List.zipIdx_map_fst]

/-- From a multiple of `k + 1` on, `k` elements are kept and the next one is not. -/
theorem withoutEvery_eq {α : Type} {k start : Nat} {l : List α} (hstart : (k + 1) ∣ start)
    (hlength : k < l.length) :
    withoutEvery (k + 1) start l =
      l.take k ++ withoutEvery (k + 1) (start + (k + 1)) (l.drop (k + 1)) := by
  have hhead : withoutEvery (k + 1) start (l.take k) = l.take k :=
    withoutEvery_of_le hstart (List.length_take_le k l)
  have hsplit : l = l.take k ++ (l[k] :: l.drop (k + 1)) := by
    rw [← List.drop_eq_getElem_cons hlength, List.take_append_drop]
  have hplace : ((start + k + 1) % (k + 1) != 0) = false := by
    rw [Nat.add_assoc, Nat.add_mod_right, Nat.mod_eq_zero_of_dvd hstart]
    rfl
  have hlast : start + (l.take k).length = start + k := by
    rw [List.length_take_of_le (Nat.le_of_lt hlength)]
  conv => lhs; rw [hsplit]
  unfold withoutEvery at hhead ⊢
  rw [List.zipIdx_append, List.filter_append, List.map_append, hhead, hlast, List.zipIdx_cons,
    List.filter_cons_of_neg (by simpa using hplace)]
  rfl

/-- Of a list that is long enough something is left out. -/
theorem length_withoutEvery_lt {α : Type} {k : Nat} {l : List α} (hlength : k < l.length) :
    (withoutEvery (k + 1) 0 l).length < l.length := by
  have htail : (withoutEvery (k + 1) (0 + (k + 1)) (l.drop (k + 1))).length ≤
      (l.drop (k + 1)).length := by
    unfold withoutEvery
    rw [List.length_map]
    exact Nat.le_trans (List.length_filter_le _ _) (Nat.le_of_eq List.length_zipIdx)
  rw [withoutEvery_eq (Nat.dvd_zero _) hlength, List.length_append,
    List.length_take_of_le (Nat.le_of_lt hlength)]
  rw [List.length_drop] at htail
  omega

/-! ### Pages at an offset -/

/-- The request for the page at an offset. -/
def Request.startingAt (r : Request) (offset : Nat) : Request := { r with offset := some offset }

@[simp] theorem Request.effectiveOffset_startingAt (r : Request) (offset : Nat) :
    (r.startingAt offset).effectiveOffset = offset := by
  simp [startingAt, effectiveOffset]

@[simp] theorem Request.effectiveLimit_startingAt (r : Request) (offset greatest : Nat) :
    (r.startingAt offset).effectiveLimit greatest = r.effectiveLimit greatest := rfl

namespace Catalog

/-- The pages that are got from an offset on by following hints: every page but the last one says where
the next one starts. -/
inductive FollowsHints (c : Catalog) (r : Request) : Nat → List Page → Prop where
  | last {offset : Nat} {page : Page} :
      c.list (r.startingAt offset) = .ok page → page.nextOffset = none →
      FollowsHints c r offset [page]
  | next {offset hint : Nat} {page : Page} {rest : List Page} :
      c.list (r.startingAt offset) = .ok page → page.nextOffset = some hint →
      FollowsHints c r hint rest → FollowsHints c r offset (page :: rest)

variable {c : Catalog} {r : Request}

/-- Hints leave no choice. -/
theorem FollowsHints.unique {offset : Nat} {pages pages' : List Page}
    (h : c.FollowsHints r offset pages) (h' : c.FollowsHints r offset pages') : pages' = pages := by
  induction h generalizing pages' with
  | last hlist hnone =>
    cases h' with
    | last hlist' _ => rw [Except.ok.inj (hlist'.symm.trans hlist)]
    | next hlist' hsome _ =>
      rw [Except.ok.inj (hlist'.symm.trans hlist), hnone] at hsome
      exact nomatch hsome
  | next hlist hsome _ ih =>
    cases h' with
    | last hlist' hnone =>
      rw [Except.ok.inj (hlist'.symm.trans hlist), hsome] at hnone
      exact nomatch hnone
    | next hlist' hsome' hrest =>
      obtain rfl := Except.ok.inj (hlist'.symm.trans hlist)
      obtain rfl := Option.some.inj (hsome'.symm.trans hsome)
      rw [ih hrest]

/-- All pages of a list are pages of the same matches. -/
theorem list_startingAt (hc : c.HoldsEvents) {q : Query}
    (hq : Query.ofFilter .events r.filter = .ok q) :
    ∃ found, c.slot.current.Matches q r.effectiveSort found ∧
      ∀ offset, c.list (r.startingAt offset) =
        .ok ((r.startingAt offset).pageOf c.config.maxResults (found.map Prod.snd)) := by
  obtain ⟨found, hfound, -⟩ := list_eq_pageOf hc hq
  refine ⟨found, hfound, fun offset => ?_⟩
  -- neither the filter nor the sort depends on the offset
  obtain ⟨found', hfound', hlist⟩ := list_eq_pageOf hc (r := r.startingAt offset) hq
  rw [hlist, hfound.unique hfound']

/-- **From a multiple of the stride on.** If a list yields the pages of `events`, hints lead from there to
the end, and show what is left without every event that they pass over. The induction is on the number of
events left. -/
theorem exists_followsHints {events : List Event}
    (hlist : ∀ offset, c.list (r.startingAt offset) =
      .ok ((r.startingAt offset).pageOf c.config.maxResults events))
    (offset : Nat) (hoffset : (r.effectiveLimit c.config.maxResults + 1) ∣ offset) :
    ∃ pages, c.FollowsHints r offset pages ∧
      pages.flatMap Page.events =
        withoutEvery (r.effectiveLimit c.config.maxResults + 1) offset (events.drop offset) ∧
      pages.length =
        (events.length - offset) / (r.effectiveLimit c.config.maxResults + 1) + 1 := by
  generalize hk : r.effectiveLimit c.config.maxResults = k at *
  induction hn : events.length - offset using Nat.strongRecOn generalizing offset with
  | ind n ih =>
    have hpage := hlist offset
    by_cases hmore : k + offset < events.length
    -- there is a hint, and it leads to the next multiple
    · obtain ⟨rest, hrest, hevents, hlength⟩ := ih (events.length - (offset + (k + 1))) (by omega)
        (offset + (k + 1)) (Nat.dvd_add hoffset (Nat.dvd_refl _)) rfl
      refine ⟨_, .next hpage ?_ hrest, ?_, ?_⟩
      · simp only [Request.pageOf, Request.effectiveLimit_startingAt,
          Request.effectiveOffset_startingAt, hk, if_pos hmore]
        congr 1
        omega
      · rw [List.flatMap_cons, hevents, withoutEvery_eq hoffset (by rw [List.length_drop]; omega),
          List.drop_drop]
        simp [Request.pageOf, hk]
      · have hstep : n = (events.length - (offset + (k + 1))) + (k + 1) := by omega
        rw [List.length_cons, hlength, hstep, Nat.add_div_right _ (Nat.succ_pos k)]
    -- there is none, and the page shows all that is left
    · refine ⟨_, .last hpage ?_, ?_, ?_⟩
      · simp only [Request.pageOf, Request.effectiveLimit_startingAt,
          Request.effectiveOffset_startingAt, hk, if_neg hmore]
      · have hleft : (events.drop offset).length ≤ k := by
          rw [List.length_drop]
          omega
        rw [withoutEvery_of_le hoffset hleft, List.flatMap_singleton]
        simp [Request.pageOf, hk, List.take_of_length_le hleft]
      · rw [List.length_singleton, Nat.div_eq_of_lt (by omega)]

/-- **What following hints shows.** If the filter is refused, so is every page. Otherwise hints lead from the
first page to the end in one way only. The client is shown the matches in their order without every
`(k + 1)`-th of them, where `k` is the size of the pages: one event is lost between each page and the next,
and nothing is lost exactly if all matches fit on the first page. -/
theorem followed_pages (hc : c.HoldsEvents) (r : Request) :
    (∃ e, Query.ofFilter .events r.filter = .error e ∧
      ∀ offset, c.list (r.startingAt offset) = .error e) ∨
    ∃ q found pages, Query.ofFilter .events r.filter = .ok q ∧
      c.slot.current.Matches q r.effectiveSort found ∧
      c.FollowsHints r 0 pages ∧ (∀ pages', c.FollowsHints r 0 pages' → pages' = pages) ∧
      pages.length = found.length / (r.effectiveLimit c.config.maxResults + 1) + 1 ∧
      pages.flatMap Page.events =
        withoutEvery (r.effectiveLimit c.config.maxResults + 1) 0 (found.map Prod.snd) ∧
      ((pages.flatMap Page.events).Perm (found.map Prod.snd) ↔
        found.length ≤ r.effectiveLimit c.config.maxResults) := by
  cases hq : Query.ofFilter .events r.filter with
  | error e =>
    exact .inl ⟨e, rfl, fun offset => list_error hc hq⟩
  | ok q =>
    obtain ⟨found, hfound, hlist⟩ := list_startingAt hc hq
    obtain ⟨pages, hpages, hevents, hlength⟩ := exists_followsHints hlist 0 (Nat.dvd_zero _)
    rw [List.drop_zero] at hevents
    rw [List.length_map, Nat.sub_zero] at hlength
    refine .inr ⟨q, found, pages, rfl, hfound, hpages, fun _ h => hpages.unique h, hlength, hevents, ?_⟩
    rw [hevents, ← List.length_map (f := Prod.snd)]
    constructor
    -- a list that is too long loses an element, so it is no longer of the same length
    · intro hperm
      by_contra hlong
      exact absurd hperm.length_eq (Nat.ne_of_lt (length_withoutEvery_lt (Nat.lt_of_not_le hlong)))
    · intro hshort
      rw [withoutEvery_of_le (Nat.dvd_zero _) hshort]

/-! ### Two events in pages of one -/

/-- One of the two events, which no sort tells apart. -/
def hostDown (n : Nat) : Event := .raise (.ofNat n) .epoch "host" "/Status" "down" .warning

/-- An index of the two events. -/
def twoEvents : Index := indexOf [hostDown 1, hostDown 2]

/-- The two events are listed in the order in which the index holds them. -/
private theorem list_twoEvents
    (hopen : openDirectory "events" .default (.index twoEvents) false = .ok c) (offset : Nat) :
    c.list (({ limit := some 1 } : Request).startingAt offset) =
      .ok ((({ limit := some 1 } : Request).startingAt offset).pageOf 100 [hostDown 1, hostDown 2]) := by
  obtain ⟨found, hfound, hlist⟩ := list_startingAt (ofEvents_indexOf hopen).holdsEvents
    (r := { limit := some 1 }) (q := .all) rfl
  cases hopen
  have hlisted : [(⟨0, 0⟩, hostDown 1), (⟨0, 1⟩, hostDown 2)] = found := hfound.unique
    { perm := .refl _
      listed := List.pairwise_pair.2 (.inr ⟨fun _ _ => rfl, .inr ⟨rfl, Nat.zero_lt_one⟩⟩) }
  rw [← hlisted] at hlist
  exact hlist offset

/-- Of two events in pages of one, only the first is shown. -/
theorem followed_pages_two :
    ∃ c pages, openDirectory "events" .default (.index twoEvents) false = .ok c ∧
      c.FollowsHints { limit := some 1 } 0 pages ∧ pages.length = 2 ∧
      pages.flatMap Page.events = [hostDown 1] := by
  obtain ⟨c, hopen⟩ : ∃ c, openDirectory "events" .default (.index twoEvents) false = .ok c :=
    ⟨_, rfl⟩
  rcases followed_pages (ofEvents_indexOf hopen).holdsEvents { limit := some 1 } with
    ⟨e, hrefused, -⟩ | ⟨q, found, pages, -, -, hpages, hunique, -⟩
  · exact nomatch hrefused
  -- the pages are known, since hints leave no choice
  · have hknown := hunique _
      (.next (list_twoEvents hopen 0) rfl (.last (list_twoEvents hopen 2) rfl))
    refine ⟨c, pages, hopen, hpages, ?_⟩
    rw [← hknown]
    exact ⟨rfl, rfl⟩

/-- **Following hints does not show all.** Of two events in pages of one, the hint of the first page leads
behind the second event. -/
theorem followed_pages_skip :
    ∃ c pages page, openDirectory "events" .default (.index twoEvents) false = .ok c ∧
      c.list { limit := some 1, offset := some 1 } = .ok page ∧ hostDown 2 ∈ page.events ∧
      c.FollowsHints { limit := some 1 } 0 pages ∧ hostDown 2 ∉ pages.flatMap Page.events := by
  obtain ⟨c, hopen⟩ : ∃ c, openDirectory "events" .default (.index twoEvents) false = .ok c :=
    ⟨_, rfl⟩
  refine ⟨c, _, _, hopen, list_twoEvents hopen 1, ?_,
    .next (list_twoEvents hopen 0) rfl (.last (list_twoEvents hopen 2) rfl), ?_⟩
  · decide
  · decide

end Catalog

end EventCatalog
