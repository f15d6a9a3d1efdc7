import Mathlib.Data.List.Induction
import Mathlib.Data.List.Nodup
import Mathlib.Data.Nat.Init

/-! # Reading a list page by page

A server hands out the elements behind a cursor, a page at a time.  The reader
keeps what it selects of a page, counts elements, remembers the last one it
counted as the next cursor, and stops at the first page of which it counted less
than a full one.  Which elements are counted decides what it gets to see. -/
set_option autoImplicit false

namespace Paging

variable {α β κ : Type} (start : κ) (key : α → κ)

/-! ## The server -/

/-- The elements behind the one that the cursor names; `start` names none. -/
def following [DecidableEq κ] (items : List α) (cursor : κ) : List α :=
  if cursor = start then items else (items.dropWhile fun item => key item ≠ cursor).tail

def lastKey (items : List α) : κ := (items.getLast?.map key).getD start

section Server
variable {start key} {front rest : List α}

@[simp] theorem lastKey_nil : lastKey start key [] = start := rfl

theorem lastKey_append_singleton (front : List α) (item : α) :
    lastKey start key (front ++ [item]) = key item := by
  simp [lastKey]

theorem lastKey_append (front : List α) (nonempty : rest ≠ []) :
    lastKey start key (front ++ rest) = lastKey start key rest := by
  rw [lastKey, lastKey, List.getLast?_append_of_ne_nil front nonempty]

theorem following_lastKey [DecidableEq κ] (distinct : ((front ++ rest).map key).Nodup)
    (named : ∀ item ∈ front, key item ≠ start) :
    following start key (front ++ rest) (lastKey start key front) = rest := by
  induction front using List.reverseRecOn with
  | nil => rw [lastKey_nil, following, if_pos rfl, List.nil_append]
  | append_singleton before item _ =>
      have apart : ∀ other ∈ before, key other ≠ key item := by
        intro other member same
        rw [List.append_assoc, List.map_append, List.nodup_append] at distinct
        exact distinct.2.2 (key other) (List.mem_map_of_mem member) (key item) (by simp) same
      rw [lastKey_append_singleton, following, if_neg (named item (by simp)), List.append_assoc,
        List.dropWhile_append_of_pos fun other member => by simpa using apart other member]
      simp

end Server

/-! ## The reader -/

section Reader
variable (select : α → Option β) (counts : α → Bool) (size : ℕ)

structure Scan (β κ : Type) where
  collected : List β
  count : ℕ
  last : κ

def scanItem (scan : Scan β κ) (item : α) : Scan β κ :=
  { collected := scan.collected ++ (select item).toList
    count := if counts item then scan.count + 1 else scan.count
    last := if counts item then key item else scan.last }

/-- The loop over the pages.  `none` is a loop that has not ended yet; a query
without an answer ends it. -/
def readPages (query : κ → Option (List α)) : ℕ → κ → List β → Option (List β)
  | 0, _, _ => none
  | fuel + 1, cursor, collected =>
      match query cursor with
      | none => some collected
      | some page =>
          let scan := page.foldl (scanItem key select counts) ⟨collected, 0, start⟩
          if scan.count < size then some scan.collected
          else readPages query fuel scan.last scan.collected

def Reads (query : κ → Option (List α)) (result : List β) : Prop :=
  ∃ fuel, readPages start key select counts size query fuel start [] = some result

/-- No selected element stands on a later page than one that is not counted. -/
def NoneBehind (items : List α) : Prop :=
  ∀ i j skipped kept, items[i]? = some skipped → items[j]? = some kept →
    counts skipped = false → (select kept).isSome → j / size ≤ i / size

end Reader

section Loop
variable {start key} {select : α → Option β} {counts : α → Bool} {size : ℕ}
  {query : κ → Option (List α)}

theorem scan_page (page : List α) : ∀ scan : Scan β κ,
    page.foldl (scanItem key select counts) scan =
      ⟨scan.collected ++ page.filterMap select, scan.count + page.countP counts,
        ((page.filter counts).getLast?.map key).getD scan.last⟩ := by
  induction page using List.reverseRecOn with
  | nil =>
      intro scan
      simp
  | append_singleton front item ih =>
      intro scan
      rw [List.foldl_append, ih, List.foldl_cons, List.foldl_nil, scanItem]
      cases chosen : select item <;> cases counted : counts item <;>
        simp [List.filterMap_append, List.countP_append, List.filter_append, chosen, counted,
          Nat.add_assoc]

theorem readPages_succ (fuel : ℕ) : ∀ (cursor : κ) (collected result : List β),
    readPages start key select counts size query fuel cursor collected = some result →
    readPages start key select counts size query (fuel + 1) cursor collected = some result := by
  induction fuel with
  | zero =>
      intro cursor collected result ran
      cases ran
  | succ fuel ih =>
      intro cursor collected result ran
      rw [readPages] at ran ⊢
      cases answer : query cursor with
      | none => rwa [answer] at ran
      | some page =>
          rw [answer] at ran
          dsimp only at ran ⊢
          split at ran
          · next short => rwa [if_pos short]
          · next full =>
              rw [if_neg full]
              exact ih _ _ _ ran

theorem readPages_mono {fuel more : ℕ} (enough : fuel ≤ more) {cursor : κ}
    {collected result : List β}
    (ran : readPages start key select counts size query fuel cursor collected = some result) :
    readPages start key select counts size query more cursor collected = some result := by
  induction more, enough using Nat.le_induction with
  | base => exact ran
  | succ more _ ih => exact readPages_succ more _ _ _ ih

theorem Reads.unique {first second : List β}
    (left : Reads start key select counts size query first)
    (right : Reads start key select counts size query second) : first = second := by
  obtain ⟨fuel, ranLeft⟩ := left
  obtain ⟨more, ranRight⟩ := right
  have atLeft := readPages_mono (Nat.le_max_left fuel more) ranLeft
  have atRight := readPages_mono (Nat.le_max_right fuel more) ranRight
  exact Option.some.inj (atLeft.symm.trans atRight)

/-! ## Reading from the server -/

/-- The reader has stopped after `pages` pages: it counted all of those before,
and less than a full page of the last. -/
structure StopsAfter (counts : α → Bool) (size : ℕ) (items : List α) (pages : ℕ) : Prop where
  counted : ∀ item ∈ items.take (size * pages), counts item = true
  short : ((items.drop (size * pages)).take size).countP counts < size

theorem full_of_not_short {page : List α} (atMost : page.length ≤ size)
    (notShort : ¬ page.countP counts < size) :
    page.length = size ∧ ∀ item ∈ page, counts item = true := by
  have bound : page.countP counts ≤ page.length := List.countP_le_length
  refine ⟨by omega, ?_⟩
  rw [← List.countP_eq_length]
  omega

/-- The loop from a page on, when everything before it was counted. -/
theorem readPages_from [DecidableEq κ] {items : List α} (positive : 0 < size)
    (distinct : (items.map key).Nodup) (named : ∀ item ∈ items, key item ≠ start) (rest : ℕ) :
    ∀ pages, items.length - size * pages ≤ rest →
      (∀ item ∈ items.take (size * pages), counts item = true) →
      ∃ last, StopsAfter counts size items last ∧ ∃ fuel,
        readPages start key select counts size
            (fun cursor => some ((following start key items cursor).take size)) fuel
            (lastKey start key (items.take (size * pages)))
            ((items.take (size * pages)).filterMap select) =
          some ((items.take (size * (last + 1))).filterMap select) := by
  induction rest using Nat.strong_induction_on with
  | _ rest ih =>
      intro pages left counted
      have behind : following start key items (lastKey start key (items.take (size * pages))) =
          items.drop (size * pages) := by
        have split := List.take_append_drop (size * pages) items
        have general := @following_lastKey _ _ start key (items.take (size * pages))
          (items.drop (size * pages)) _ (by rw [split]; exact distinct)
          (fun item member => named item (List.mem_of_mem_take member))
        rwa [split] at general
      have next : items.take (size * (pages + 1)) =
          items.take (size * pages) ++ (items.drop (size * pages)).take size := by
        rw [Nat.mul_succ, List.take_add]
      by_cases short : ((items.drop (size * pages)).take size).countP counts < size
      · refine ⟨pages, ⟨counted, short⟩, 1, ?_⟩
        rw [readPages, behind]
        simp only [scan_page, Nat.zero_add, short, if_true]
        rw [next, List.filterMap_append]
      · obtain ⟨full, all⟩ := full_of_not_short (List.length_take_le ..) short
        have remains : size ≤ items.length - size * pages := by
          rw [List.length_take, List.length_drop] at full
          omega
        have nonempty : (items.drop (size * pages)).take size ≠ [] := by
          intro empty
          rw [empty, List.length_nil] at full
          omega
        have countedNext : ∀ item ∈ items.take (size * (pages + 1)), counts item = true := by
          intro item member
          rw [next, List.mem_append] at member
          rcases member with before | here
          · exact counted item before
          · exact all item here
        have shrinks : items.length - size * (pages + 1) < rest := by
          rw [Nat.mul_succ]
          omega
        obtain ⟨last, stops, fuel, ran⟩ := ih _ shrinks (pages + 1) (Nat.le_refl _) countedNext
        refine ⟨last, stops, fuel + 1, ?_⟩
        rw [readPages, behind]
        simp only [scan_page, Nat.zero_add, short, if_false]
        rw [List.filter_eq_self.mpr all, ← ran, next, List.filterMap_append,
          lastKey_append _ nonempty]
        rfl

/-! ## What is read -/

theorem reads_until_short [DecidableEq κ] {items : List α} (positive : 0 < size)
    (distinct : (items.map key).Nodup) (named : ∀ item ∈ items, key item ≠ start) :
    ∃ last, StopsAfter counts size items last ∧
      Reads start key select counts size
        (fun cursor => some ((following start key items cursor).take size))
        ((items.take (size * (last + 1))).filterMap select) := by
  obtain ⟨last, stops, fuel, ran⟩ := @readPages_from α β κ start key select counts size _ items
    positive distinct named items.length 0 (by omega) (by simp)
  refine ⟨last, stops, fuel, ?_⟩
  simpa using ran

theorem StopsAfter.le_page {items : List α} {last i : ℕ} {item : α} (positive : 0 < size)
    (stops : StopsAfter counts size items last) (found : items[i]? = some item)
    (skipped : counts item = false) : last ≤ i / size := by
  by_contra early
  have inside : i < size * last := by
    rw [Nat.mul_comm]
    exact Nat.lt_mul_of_div_lt (by omega) positive
  have member : item ∈ items.take (size * last) := by
    rw [List.mem_iff_getElem?]
    exact ⟨i, by rw [List.getElem?_take_of_lt inside, found]⟩
  rw [stops.counted item member] at skipped
  cases skipped

/-- When there is more behind the last page, that page is full, so one of its
elements was passed over. -/
theorem StopsAfter.skipped_of_more {items : List α} {last : ℕ}
    (stops : StopsAfter counts size items last) (more : size * (last + 1) < items.length) :
    ∃ place < size, ∃ skipped, items[size * last + place]? = some skipped ∧
      counts skipped = false := by
  obtain ⟨skipped, onPage, isSkipped⟩ : ∃ skipped ∈ (items.drop (size * last)).take size,
      counts skipped = false := by
    by_contra all
    simp only [not_exists, not_and, Bool.not_eq_false] at all
    have every : ((items.drop (size * last)).take size).countP counts =
        ((items.drop (size * last)).take size).length :=
      List.countP_eq_length.mpr all
    have short := stops.short
    rw [every, List.length_take, List.length_drop] at short
    rw [Nat.mul_succ] at more
    omega
  obtain ⟨place, found⟩ := List.mem_iff_getElem?.mp onPage
  have placed : place < size := by
    have bound := (List.getElem?_eq_some_iff.mp found).1
    rw [List.length_take] at bound
    omega
  rw [List.getElem?_take_of_lt placed, List.getElem?_drop] at found
  exact ⟨place, placed, skipped, found, isSkipped⟩

/-- What is not read holds nothing to select exactly when no selected element
stands on a later page than one that is not counted. -/
theorem StopsAfter.noneBehind_iff {items : List α} {last : ℕ} (positive : 0 < size)
    (stops : StopsAfter counts size items last) :
    (∀ item ∈ items.drop (size * (last + 1)), select item = none) ↔
      NoneBehind select counts size items := by
  constructor
  · intro nothing i j skipped kept foundSkipped foundKept isSkipped isKept
    have early : j < size * (last + 1) := by
      by_contra late
      have member : kept ∈ items.drop (size * (last + 1)) := by
        rw [List.mem_iff_getElem?]
        refine ⟨j - size * (last + 1), ?_⟩
        rw [List.getElem?_drop, Nat.add_sub_cancel' (Nat.not_lt.mp late), foundKept]
      rw [nothing kept member] at isKept
      cases isKept
    have onPage : j / size < last + 1 := Nat.div_lt_of_lt_mul early
    have skippedPage := stops.le_page positive foundSkipped isSkipped
    omega
  · intro none item member
    by_contra some
    have isKept : (select item).isSome = true := Option.isSome_iff_ne_none.mpr some
    obtain ⟨offset, found⟩ := List.mem_iff_getElem?.mp member
    rw [List.getElem?_drop] at found
    have inside : size * (last + 1) + offset < items.length :=
      (List.getElem?_eq_some_iff.mp found).1
    obtain ⟨place, placed, skipped, foundSkipped, isSkipped⟩ :=
      stops.skipped_of_more (Nat.lt_of_le_of_lt (Nat.le_add_right _ _) inside)
    have order := none _ _ skipped item foundSkipped found isSkipped isKept
    rw [Nat.mul_add_div positive, Nat.mul_add_div positive, Nat.div_eq_of_lt placed] at order
    have later : 0 ≤ offset / size := Nat.zero_le _
    omega

/-- Everything selected is read exactly when none of it stands behind a page
that counts as short. -/
theorem reads_all_iff [DecidableEq κ] {items : List α} (positive : 0 < size)
    (distinct : (items.map key).Nodup) (named : ∀ item ∈ items, key item ≠ start) :
    Reads start key select counts size
        (fun cursor => some ((following start key items cursor).take size))
        (items.filterMap select) ↔ NoneBehind select counts size items := by
  obtain ⟨last, stops, reads⟩ :=
    @reads_until_short α β κ start key select counts size _ items positive distinct named
  rw [← stops.noneBehind_iff positive]
  have split := List.take_append_drop (size * (last + 1)) items
  constructor
  · intro all item member
    have same := all.unique reads
    have whole : items.filterMap select = (items.take (size * (last + 1))).filterMap select ++
        (items.drop (size * (last + 1))).filterMap select := by
      rw [← List.filterMap_append, split]
    rw [whole, List.append_right_eq_self, List.filterMap_eq_nil_iff] at same
    exact same item member
  · intro nothing
    have rest : (items.drop (size * (last + 1))).filterMap select = [] :=
      List.filterMap_eq_nil_iff.mpr nothing
    have whole : items.filterMap select = (items.take (size * (last + 1))).filterMap select := by
      conv_lhs => rw [← split]
      rw [List.filterMap_append, rest, List.append_nil]
    rw [whole]
    exact reads

theorem noneBehind_of_counts_all {items : List α} (all : ∀ item, counts item = true) :
    NoneBehind select counts size items := by
  intro i j skipped kept _ _ isSkipped _
  rw [all] at isSkipped
  cases isSkipped

/-! ## Requests that fail -/

def cursorAt (start : κ) (key : α → κ) (size : ℕ) (items : List α) (page : ℕ) : κ :=
  lastKey start key (items.take (size * page))

/-- A reader of whole pages is at `page`: the requests before it were answered,
and the one for it fails, or there are no items left. -/
structure EndsAt (start : κ) (key : α → κ) (size : ℕ) (fails : κ → Bool) (items : List α)
    (page : ℕ) : Prop where
  answered : ∀ earlier < page, fails (cursorAt start key size items earlier) = false
  nothingLeft : fails (cursorAt start key size items page) = true ∨ items.length < size * page

/-- Induction on what is left, from a page on. -/
theorem readPages_failing_from [DecidableEq κ] {items : List α} (positive : 0 < size)
    (distinct : (items.map key).Nodup) (named : ∀ item ∈ items, key item ≠ start)
    (all : ∀ item, counts item = true) (fails : κ → Bool) (rest : ℕ) :
    ∀ page, items.length - size * page ≤ rest →
      (∀ earlier < page, fails (cursorAt start key size items earlier) = false) →
      size * page ≤ items.length →
      ∃ last, EndsAt start key size fails items last ∧ ∃ fuel,
        readPages start key select counts size
            (fun cursor => if fails cursor then none
              else some ((following start key items cursor).take size)) fuel
            (cursorAt start key size items page)
            ((items.take (size * page)).filterMap select) =
          some ((items.take (size * last)).filterMap select) := by
  induction rest using Nat.strong_induction_on with
  | _ rest ih =>
      intro page left answered inside
      cases failed : fails (cursorAt start key size items page) with
      | true =>
          refine ⟨page, ⟨answered, .inl failed⟩, 1, ?_⟩
          rw [readPages]
          simp [failed]
      | false =>
          have answeredNext : ∀ earlier < page + 1,
              fails (cursorAt start key size items earlier) = false := by
            intro earlier before
            rcases Nat.lt_succ_iff_lt_or_eq.mp before with sooner | rfl
            · exact answered earlier sooner
            · exact failed
          have behind : following start key items (cursorAt start key size items page) =
              items.drop (size * page) := by
            have split := List.take_append_drop (size * page) items
            have general := @following_lastKey _ _ start key (items.take (size * page))
              (items.drop (size * page)) _ (by rw [split]; exact distinct)
              (fun item member => named item (List.mem_of_mem_take member))
            rwa [split] at general
          have next : items.take (size * (page + 1)) =
              items.take (size * page) ++ (items.drop (size * page)).take size := by
            rw [Nat.mul_succ, List.take_add]
          have counted : ((items.drop (size * page)).take size).countP counts =
              min size (items.length - size * page) := by
            rw [List.countP_eq_length.mpr fun item _ => all item, List.length_take,
              List.length_drop]
          by_cases short : items.length < size * (page + 1)
          · refine ⟨page + 1, ⟨answeredNext, .inr short⟩, 1, ?_⟩
            have few : min size (items.length - size * page) < size := by
              rw [Nat.mul_succ] at short
              omega
            rw [readPages]
            simp only [failed, Bool.false_eq_true, if_false, behind, scan_page, counted,
              Nat.zero_add, few, if_true]
            rw [next, List.filterMap_append]
          · have full : ¬ min size (items.length - size * page) < size := by
              rw [Nat.mul_succ] at short
              omega
            have nonempty : (items.drop (size * page)).take size ≠ [] := by
              intro empty
              have length := congrArg List.length empty
              rw [List.length_take, List.length_drop, List.length_nil] at length
              rw [Nat.mul_succ] at short
              omega
            have shrinks : items.length - size * (page + 1) < rest := by
              rw [Nat.mul_succ] at short ⊢
              omega
            obtain ⟨last, ends, fuel, ran⟩ :=
              ih _ shrinks (page + 1) (Nat.le_refl _) answeredNext (Nat.not_lt.mp short)
            refine ⟨last, ends, fuel + 1, ?_⟩
            rw [readPages]
            simp only [failed, Bool.false_eq_true, if_false, behind, scan_page, counted,
              Nat.zero_add, full]
            rw [List.filter_eq_self.mpr fun item _ => all item, ← ran, cursorAt, next,
              List.filterMap_append, lastKey_append _ nonempty]
            rfl

/-- A reader that counts everything has read the pages in front of the first
request that failed, and everything when none did. -/
theorem reads_until_failure [DecidableEq κ] {items : List α} (positive : 0 < size)
    (distinct : (items.map key).Nodup) (named : ∀ item ∈ items, key item ≠ start)
    (all : ∀ item, counts item = true) (fails : κ → Bool) :
    ∃ last, EndsAt start key size fails items last ∧
      Reads start key select counts size
        (fun cursor => if fails cursor then none
          else some ((following start key items cursor).take size))
        ((items.take (size * last)).filterMap select) := by
  obtain ⟨last, ends, fuel, ran⟩ := @readPages_failing_from α β κ start key select counts size _
    items positive distinct named all fails items.length 0 (by omega)
    (fun _ before => absurd before (Nat.not_lt_zero _)) (by omega)
  refine ⟨last, ends, fuel, ?_⟩
  simpa [cursorAt] using ran

end Loop

end Paging
