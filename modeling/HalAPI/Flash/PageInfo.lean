import HalAPI.Api.ExecutionContext

/-!
# `Flash::get_page_info`

`get_page_info()` asks the driver for the records of pages 0, 1, 2 and so on until one is not
valid.  It does so twice, once to count the pages and once to collect their records, and every
request has an error scope of its own: a driver may say that there are no more pages by
failing.

The two passes need not see the same device.  `Collected` says what a pass sees, and
`getPageInfos_collects` what the call returns.
-/

namespace HalAPI.Flash

open Foundation

/-! ## Data -/

/-- `Flash::PageInfo` (`flash_pageinfo_t`) -/
structure PageInfo where
  page : BitVec 32 := 0
  addr : BitVec 32 := 0
  size : BitVec 32 := 0
  deriving DecidableEq

/-- A record of which only the number of the page is known. -/
def PageInfo.ofPage (page : BitVec 32) : PageInfo := { page }

/-- `PageInfo::is_valid` -/
def PageInfo.isValid (info : PageInfo) : Bool := info.size != 0

/-- The requests of a flash device. -/
inductive FlashRequest where
  | getPageInfo (pageInfo : PageInfo)
  deriving DecidableEq

/-- How the driver of a flash device answers the requests. -/
structure FlashDriver (σ : Type) where
  onGetPageInfo : PageInfo → σ → (ℤ × PageInfo) × σ

/-! ## The code -/

section Code

variable {σ : Type} (driver : FlashDriver σ)

/-- `Flash::get_page_info(page)`, whose local `page_info` has the number of the page only until the
driver fills it in -/
def getPageInfo (page : BitVec 32) : Program (Thread σ FlashRequest) PageInfo := do
  let filled ← query (.getPageInfo (.ofPage page)) (driver.onGetPageInfo (.ofPage page))
  return filled.getD (.ofPage page)

/-- A round of the first loop of `get_page_info()`: count the page, or end. -/
def countRound (count : BitVec 32) :
    Program (Thread σ FlashRequest) (BitVec 32 ⊕ BitVec 32) :=
  errorScope do
    let info ← getPageInfo driver count
    return if info.isValid then .inl (count + 1) else .inr count

/-- A round of the second loop: collect the record of the page, or end. -/
def collectRound (s : BitVec 32 × List PageInfo) :
    Program (Thread σ FlashRequest) ((BitVec 32 × List PageInfo) ⊕ List PageInfo) :=
  errorScope do
    let info ← getPageInfo driver s.1
    return if info.isValid then .inl (s.1 + 1, s.2 ++ [info]) else .inr s.2

/-- `Flash::get_page_info()` -/
def getPageInfos : Program (Thread σ FlashRequest) (List PageInfo) := do
  let count ← Program.iterate (countRound driver) 0
  if count = 0 then return []
  else Program.iterate (collectRound driver) (0, [])

end Code

/-! ## What a pass sees -/

section Pass

variable {σ : Type} (driver : FlashDriver σ)

/-- The record that a request for a page returns: the driver's, if the request is made and
succeeds. -/
def seen (page : BitVec 32) (t : Thread σ FlashRequest) : PageInfo :=
  if t.isError ∨ (driver.onGetPageInfo (.ofPage page) t.device).1.1 < 0 then .ofPage page
  else (driver.onGetPageInfo (.ofPage page) t.device).1.2

/-- The thread after a request for a page. -/
def asked (page : BitVec 32) (t : Thread σ FlashRequest) : Thread σ FlashRequest :=
  if t.isError then t
  else t.afterCall (.getPageInfo (.ofPage page)) (driver.onGetPageInfo (.ofPage page) t.device).1.1
    (driver.onGetPageInfo (.ofPage page) t.device).2

/-- The thread after the first `k` requests of a pass, each in its error scope. -/
def afterRequests (t : Thread σ FlashRequest) : ℕ → Thread σ FlashRequest
  | 0 => t
  | k + 1 => (asked driver (BitVec.ofNat 32 k) (afterRequests t k)).cleared

/-- The record that the request number `k` of a pass returns. -/
def seenAt (t : Thread σ FlashRequest) (k : ℕ) : PageInfo :=
  seen driver (BitVec.ofNat 32 k) (afterRequests driver t k)

/-- The records are what a pass sees before the first record that is not valid. -/
structure Collected (t : Thread σ FlashRequest) (records : List PageInfo) : Prop where
  eq_seen : records = (List.range records.length).map (seenAt driver t)
  valid : ∀ info ∈ records, info.isValid = true
  last : (seenAt driver t records.length).isValid = false

/-- A request for a page returns what it sees. -/
lemma yields_getPageInfo (page : BitVec 32) (t : Thread σ FlashRequest) :
    (getPageInfo driver page).Yields t (seen driver page t) (asked driver page t) := by
  rw [getPageInfo, Program.yields_bind]
  unfold seen asked
  cases he : t.isError with
  | true => exact ⟨none, t, (yields_query_of_error he _ _ _).mpr ⟨rfl, rfl⟩, by simp⟩
  | false =>
    refine ⟨_, _, (yields_query he _ _ _).mpr ⟨rfl, rfl⟩, ?_⟩
    by_cases hfail : (driver.onGetPageInfo (.ofPage page) t.device).1.1 < 0
    · simp [hfail]
    · simp [hfail]

variable {driver}

/-- A block that goes on from a request for a page. -/
lemma yields_scoped {α : Type} (page : BitVec 32) (t : Thread σ FlashRequest)
    (next : PageInfo → α) :
    (errorScope (getPageInfo driver page >>= fun info => pure (next info))).Yields t
      (next (seen driver page t)) (asked driver page t).cleared := by
  rw [yields_errorScope]
  refine ⟨asked driver page t, ?_, rfl⟩
  exact (yields_getPageInfo driver page t).bind (Program.Yields.pure _ _)

/-- The records of a pass are valid as they are seen. -/
lemma Collected.isValid {t : Thread σ FlashRequest} {records : List PageInfo}
    (h : Collected driver t records) {k : ℕ} (hk : k < records.length) :
    (seenAt driver t k).isValid = true := by
  refine h.valid _ ?_
  rw [h.eq_seen]
  exact List.mem_map_of_mem (List.mem_range.mpr (by simpa using hk))

/-- The number of the next page. -/
lemma ofNat_succ (k : ℕ) : BitVec.ofNat 32 (k + 1) = BitVec.ofNat 32 k + 1 := BitVec.ofNat_add k 1

/-- The first loop counts what it sees. -/
lemma yields_countPages {t : Thread σ FlashRequest} {records : List PageInfo}
    (h : Collected driver t records) :
    (Program.iterate (countRound driver) 0).Yields t (BitVec.ofNat 32 records.length)
      (afterRequests driver t (records.length + 1)) := by
  have hround : ∀ k, (countRound driver (BitVec.ofNat 32 k)).Yields (afterRequests driver t k)
      (if (seenAt driver t k).isValid then .inl (BitVec.ofNat 32 k + 1)
        else .inr (BitVec.ofNat 32 k)) (afterRequests driver t (k + 1)) := fun k =>
    yields_scoped (BitVec.ofNat 32 k) (afterRequests driver t k) fun info =>
      if info.isValid then Sum.inl (BitVec.ofNat 32 k + 1) else Sum.inr (BitVec.ofNat 32 k)
  refine Program.yields_iterate_of_chain (b := BitVec.ofNat 32) (s := afterRequests driver t)
    (fun k hk => ?_) ?_
  · have hnext := hround k
    rw [h.isValid hk, if_pos rfl, ← ofNat_succ] at hnext
    exact hnext
  · have hend := hround records.length
    rw [h.last, if_neg (by simp)] at hend
    exact hend

/-- The second loop collects what it sees. -/
lemma yields_collectPages {t : Thread σ FlashRequest} {records : List PageInfo}
    (h : Collected driver t records) :
    (Program.iterate (collectRound driver) (0, [])).Yields t records
      (afterRequests driver t (records.length + 1)) := by
  have htake : ∀ k, k < records.length → records.take (k + 1) =
      records.take k ++ [seenAt driver t k] := by
    intro k hk
    have hget : records[k] = seenAt driver t k := by
      conv_lhs => rw [List.getElem_of_eq h.eq_seen hk]
      simp
    rw [← List.take_concat_get' records k hk, hget]
  have hround : ∀ k, (collectRound driver (BitVec.ofNat 32 k, records.take k)).Yields
      (afterRequests driver t k)
      (if (seenAt driver t k).isValid
        then .inl (BitVec.ofNat 32 k + 1, records.take k ++ [seenAt driver t k])
        else .inr (records.take k)) (afterRequests driver t (k + 1)) := fun k =>
    yields_scoped (BitVec.ofNat 32 k) (afterRequests driver t k) fun info =>
      if info.isValid then Sum.inl (BitVec.ofNat 32 k + 1, records.take k ++ [info])
      else Sum.inr (records.take k)
  refine Program.yields_iterate_of_chain (b := fun k => (BitVec.ofNat 32 k, records.take k))
    (s := afterRequests driver t) (fun k hk => ?_) ?_
  · have hnext := hround k
    rw [h.isValid hk, if_pos rfl, ← htake k hk, ← ofNat_succ] at hnext
    exact hnext
  · have hend := hround records.length
    rw [h.last, if_neg (by simp)] at hend
    simpa only [List.take_length] using hend

/-- The call returns what its second pass sees, unless its first pass saw nothing. -/
lemma yields_getPageInfos {t : Thread σ FlashRequest} {counted collected : List PageInfo}
    (hcounted : Collected driver t counted) (hfits : counted.length < 2 ^ 32)
    (hcollected : counted ≠ [] →
      Collected driver (afterRequests driver t (counted.length + 1)) collected) :
    ∃ t', (getPageInfos driver).Yields t (if counted = [] then [] else collected) t' ∧
      t'.isError = false := by
  have hcount := yields_countPages hcounted
  rcases eq_or_ne counted [] with rfl | hne
  · exact ⟨afterRequests driver t 1, hcount.bind (Program.Yields.pure _ _), rfl⟩
  · have hpos : BitVec.ofNat 32 counted.length ≠ 0 := by
      intro hzero
      have hlength := congrArg BitVec.toNat hzero
      rw [BitVec.toNat_ofNat, Nat.mod_eq_of_lt hfits] at hlength
      exact hne (List.length_eq_zero_iff.mp hlength)
    refine ⟨afterRequests driver (afterRequests driver t (counted.length + 1))
      (collected.length + 1), hcount.bind ?_, rfl⟩
    rw [if_neg hpos, if_neg hne]
    exact yields_collectPages (hcollected hne)

end Pass

/-! ## A device with a list of pages -/

/-- The device reports its pages by their records, and for the page after the last it reports the
size zero or fails. -/
structure ListsPages {σ : Type} (driver : FlashDriver σ) (records : List PageInfo) : Prop where
  fits : records.length < 2 ^ 32
  size : ∀ info ∈ records, info.size ≠ 0
  record : ∀ k (hk : k < records.length) d,
    0 ≤ (driver.onGetPageInfo (.ofPage (BitVec.ofNat 32 k)) d).1.1 ∧
      (driver.onGetPageInfo (.ofPage (BitVec.ofNat 32 k)) d).1.2 = records[k]
  last : ∀ d, (driver.onGetPageInfo (.ofPage (BitVec.ofNat 32 records.length)) d).1.1 < 0 ∨
    (driver.onGetPageInfo (.ofPage (BitVec.ofNat 32 records.length)) d).1.2.size = 0

section Lists

variable {σ : Type} {driver : FlashDriver σ} {records : List PageInfo}

/-- A request for a page of the list returns its record. -/
lemma ListsPages.seen_eq (h : ListsPages driver records) {k : ℕ} (hk : k < records.length)
    {t : Thread σ FlashRequest} (ht : t.isError = false) :
    seen driver (BitVec.ofNat 32 k) t = records[k] := by
  obtain ⟨hres, hrecord⟩ := h.record k hk t.device
  rw [seen, if_neg (by simp [ht, hres]), hrecord]

/-- There is no error between the requests of a pass. -/
lemma afterRequests_isError {t : Thread σ FlashRequest} (ht : t.isError = false) (k : ℕ) :
    (afterRequests driver t k).isError = false := by
  cases k with
  | zero => exact ht
  | succ k => rfl

/-- A pass sees the list. -/
lemma ListsPages.collected (h : ListsPages driver records) {t : Thread σ FlashRequest}
    (ht : t.isError = false) : Collected driver t records where
  eq_seen := by
    refine List.ext_getElem (by simp) fun k hk _ => ?_
    rw [List.getElem_map, List.getElem_range]
    exact (h.seen_eq hk (afterRequests_isError ht k)).symm
  valid info hinfo := by simpa [PageInfo.isValid] using h.size info hinfo
  last := by
    unfold seenAt seen
    rcases h.last (afterRequests driver t records.length).device with hfail | hzero
    · rw [if_pos (Or.inr hfail)]
      rfl
    · split
      · rfl
      · simp [PageInfo.isValid, hzero]

end Lists

/-- What `get_page_info()` returns.  On a device with a list of pages: the list, each element of it
being what `get_page_info(page)` returns for its page.  On any device, whose answers may change
from request to request: what the second pass sees before the first record that is not valid, or
nothing if the first pass saw no valid record.  No error is left. -/
theorem getPageInfos_collects {σ : Type} (driver : FlashDriver σ) :
    (∀ records, ListsPages driver records → ∀ t : Thread σ FlashRequest, t.isError = false →
      (∃ t', (getPageInfos driver).Yields t records t' ∧ t'.isError = false) ∧
        ∀ k (hk : k < records.length), ∃ t',
          (getPageInfo driver (BitVec.ofNat 32 k)).Yields t records[k] t') ∧
    ∀ (t : Thread σ FlashRequest) (counted collected : List PageInfo),
      Collected driver t counted → counted.length < 2 ^ 32 →
      (counted ≠ [] →
        Collected driver (afterRequests driver t (counted.length + 1)) collected) →
      ∃ t', (getPageInfos driver).Yields t (if counted = [] then [] else collected) t' ∧
        t'.isError = false := by
  refine ⟨fun records h t ht => ⟨?_, fun k hk => ?_⟩, fun t counted collected => ?_⟩
  · have hsecond : Collected driver (afterRequests driver t (records.length + 1)) records :=
      h.collected (afterRequests_isError ht _)
    obtain ⟨t', hy, he⟩ := yields_getPageInfos (h.collected ht) h.fits fun _ => hsecond
    refine ⟨t', ?_, he⟩
    rcases eq_or_ne records [] with rfl | hne
    · exact hy
    · rwa [if_neg hne] at hy
  · have hpage := yields_getPageInfo driver (BitVec.ofNat 32 k) t
    rw [h.seen_eq hk ht] at hpage
    exact ⟨_, hpage⟩
  · exact yields_getPageInfos

/-! ### Two devices -/

/-- A device that reports the pages of a list by their records and fails for every other page. -/
def listDriver (records : List PageInfo) : FlashDriver Unit where
  onGetPageInfo info d :=
    match records[info.page.toNat]? with
    | some record => ((0, record), d)
    | none => ((-1, info), d)

/-- The device lists the pages. -/
lemma listsPages_listDriver {records : List PageInfo} (hfits : records.length < 2 ^ 32)
    (hsize : ∀ info ∈ records, info.size ≠ 0) : ListsPages (listDriver records) records where
  fits := hfits
  size := hsize
  record k hk d := by
    have hpage : (BitVec.ofNat 32 k).toNat = k := by
      rw [BitVec.toNat_ofNat, Nat.mod_eq_of_lt (hk.trans hfits)]
    simp [listDriver, PageInfo.ofPage, hpage, List.getElem?_eq_getElem hk]
  last d := by
    have hpage : (BitVec.ofNat 32 records.length).toNat = records.length := by
      rw [BitVec.toNat_ofNat, Nat.mod_eq_of_lt hfits]
    simp [listDriver, PageInfo.ofPage, hpage]

/-- A device that counts its requests, and has two pages for the first three of them and one page
from then on. -/
def shrinkingDriver : FlashDriver ℕ where
  onGetPageInfo info k :=
    ((0, { info with size := if info.page < (if k < 3 then 2 else 1) then 512 else 0 }), k + 1)

/-- A device with three pages of different sizes, and a device that loses a page between the two
passes. -/
theorem getPageInfos_collects_pages :
    (∃ t', (getPageInfos (listDriver [⟨0, 0, 512⟩, ⟨1, 512, 512⟩, ⟨2, 1024, 4096⟩])).Yields
        (Thread.start ()) [⟨0, 0, 512⟩, ⟨1, 512, 512⟩, ⟨2, 1024, 4096⟩] t' ∧ t'.isError = false) ∧
      ∃ t', (getPageInfos shrinkingDriver).Yields (Thread.start 0) [⟨0, 0, 512⟩] t' ∧
        t'.isError = false := by
  constructor
  · exact ((getPageInfos_collects _).1 _ (listsPages_listDriver (by decide) (by decide)) _ rfl).1
  · exact (getPageInfos_collects shrinkingDriver).2 (Thread.start 0) [⟨0, 0, 512⟩, ⟨1, 0, 512⟩]
      [⟨0, 0, 512⟩] ⟨by decide, by decide, by decide⟩ (by decide)
      fun _ => ⟨by decide, by decide, by decide⟩

end HalAPI.Flash
