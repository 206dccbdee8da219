import Wurzburg.Api.Pagination
import Wurzburg.System.Bank

/-!
# Wurzburg.System.Scrolling

Paging through a journal that grows.

The repository methods count the rows in one statement and read the page in another, without
a transaction around the two, and a client asks for one page after another; the service goes
on in between. New rows come in front of the old ones, so a client can read a row twice.
It misses none when it reads until a page is short (`scroll_misses_nothing`). The
`total_pages` of an answer is of no use for that: it is older than the page.
-/

namespace Wurzburg.Db

open Wurzburg.Lib.Paging

/-- The two statements of the repository methods, each on the rows it sees. -/
def countThenPage (order : CreatedAtOrder) (counted shown : List Transaction)
    (limit offset : Int) : Except SqlError (List Transaction × Int) :=
  if offset < 0 then .error (.raised "OFFSET must not be negative")
  else .ok (slice limit.toNat offset.toNat (order.sort shown), counted.length)

end Wurzburg.Db

namespace Wurzburg.System

open Wurzburg.Lib Wurzburg.Lib.Paging Wurzburg.Db Wurzburg.Api

/-! ### Reading while the service goes on -/

/-- What the two handlers list. -/
inductive Listing where
  | ofProvider (providerId : Uuid)
  | ofUser (providerId userId : Uuid)
  deriving DecidableEq, Repr

def Listing.rows (l : Listing) (pg : Pg) : List Transaction :=
  match l with
  | .ofProvider providerId => pg.transactionsOfProvider providerId
  | .ofUser providerId userId => pg.transactionsOfUser providerId userId

/-- A request for a page, answered between two states. -/
def Listing.answer (l : Listing) (order : CreatedAtOrder) (counted shown : Pg)
    (q : PaginationQuery) : Except HttpError PaginatedTransactionsResponse :=
  answerPage (countThenPage order (l.rows counted) (l.rows shown)) q

/-- Where nothing happens in between, these are the handlers. -/
theorem Listing.answer_self (order : CreatedAtOrder) (pg : Pg) (q : PaginationQuery) :
    (∀ p, (Listing.ofProvider p).answer order pg pg q = getProviderTransactions pg p order q) ∧
    ∀ p u, (Listing.ofUser p u).answer order pg pg q = getUserTransactions pg p u order q :=
  ⟨fun _ => rfl, fun _ _ => rfl⟩

/-- A client that asks for page after page. -/
structure Scroll (env : Env) where
  /-- when the rows of an answer are counted -/
  counted : Nat → State
  /-- when its page is read -/
  shown : Nat → State
  reachable : Reachable env (counted 0)
  reads : ∀ k, (machine env).Reach (fun _ _ => True) (counted k) (shown k)
  goesOn : ∀ k, (machine env).Reach (fun _ _ => True) (shown k) (counted (k + 1))

section

variable {env : Env} (s : Scroll env) (l : Listing)

/-- The answer to the request for page `k + 1`. -/
def Scroll.answer (orders : Nat → CreatedAtOrder) (limit : Int) (k : Nat) :
    Except HttpError PaginatedTransactionsResponse :=
  l.answer (orders k) (s.counted k).world.pg (s.shown k).world.pg ⟨k + 1, limit⟩

/-- The rows of page `k + 1`'s query. -/
def Scroll.now (k : Nat) : List Transaction := l.rows (s.shown k).world.pg

variable {s l}

theorem Listing.rows_sublist {pg pg' : Pg} (h : Pg.Grows pg pg') :
    (l.rows pg).Sublist (l.rows pg') := by
  cases l with
  | ofProvider p => exact h.transactions.sublist.filter _
  | ofUser p u => exact h.transactions.sublist.filter _

theorem Scroll.counted_reachable (k : Nat) : Reachable env (s.counted k) := by
  induction k with
  | zero => exact s.reachable
  | succ k ih => exact (ih.extend (s.reads k)).extend (s.goesOn k)

theorem Scroll.counted_now (k : Nat) : (l.rows (s.counted k).world.pg).Sublist (s.now l k) :=
  Listing.rows_sublist ((counted_reachable k).grows (s.reads k)).pg

theorem Scroll.now_grows (k : Nat) : (s.now l k).Sublist (s.now l (k + 1)) := by
  have hshown := (counted_reachable k).extend (s.reads k)
  exact (Listing.rows_sublist (hshown.grows (s.goesOn k)).pg).trans (counted_now (k + 1))

theorem Scroll.now_mono {j k : Nat} (h : j ≤ k) : (s.now l j).Sublist (s.now l k) := by
  induction k, h using Nat.le_induction with
  | base => exact List.Sublist.refl _
  | succ k _ ih => exact ih.trans (now_grows k)

/-- The answer, where the offset does not overflow. -/
theorem Scroll.answer_eq {orders : Nat → CreatedAtOrder} {q : Int} {limit k : Nat}
    (hlimit : (⟨k + 1, q⟩ : PaginationQuery).clampedLimit = limit) (h : k * limit < 2 ^ 63) :
    s.answer l orders q k = .ok
      { data := (slice limit (k * limit) ((orders k).sort (s.now l k))).map transactionItem
        totalCount := (l.rows (s.counted k).world.pg).length
        page := k + 1
        totalPages := totalPages (l.rows (s.counted k).world.pg).length limit } := by
  have hpage : (⟨k + 1, q⟩ : PaginationQuery).clampedPage = (k : Int) + 1 := by
    show max ((k : Int) + 1) 1 = _
    omega
  have hproduct : ((⟨k + 1, q⟩ : PaginationQuery).clampedPage - 1) *
      (⟨k + 1, q⟩ : PaginationQuery).clampedLimit = (k * limit : Nat) := by
    rw [hpage, hlimit]
    push_cast
    ring
  have hoffset : (⟨k + 1, q⟩ : PaginationQuery).offset = (k * limit : Nat) := by
    rw [PaginationQuery.offset_eq (by omega), hproduct]
  unfold answer Listing.answer answerPage countThenPage
  rw [hoffset, hlimit, hpage, if_neg (by omega)]
  rfl

/-- A page within the `total_pages` of an earlier answer is not empty. -/
theorem Scroll.page_ne_nil {limit j k : Nat} (hpos : 0 < limit) (hmax : limit ≤ 100)
    (hcount : (s.now l k).length < 2 ^ 53) (hjk : j ≤ k)
    (hpage : (k : Int) + 1 ≤ totalPages (l.rows (s.counted j).world.pg).length limit)
    (order : CreatedAtOrder) : slice limit (k * limit) (order.sort (s.now l k)) ≠ [] := by
  have hle : (l.rows (s.counted j).world.pg).length ≤ (s.now l k).length :=
    ((counted_now j).trans (now_mono hjk)).length_le
  obtain ⟨count, htotal, -, hmin⟩ :=
    @totalPages_spec (l.rows (s.counted j).world.pg).length limit hpos hmax (by omega)
  rw [htotal] at hpage
  have hmul := Nat.mul_le_mul_right limit (show k + 1 ≤ count by omega)
  rw [Nat.succ_mul] at hmul
  intro hnil
  have hlen := congrArg List.length hnil
  unfold slice at hlen
  rw [List.length_take, List.length_drop, (order.perm _).length_eq, List.length_nil] at hlen
  omega

end

/-- **A client that reads until a page is short misses nothing.** While any requests are
served, a client asks for the pages 1, 2, … of one size. Every item it reads is a row of the
journal; a page within the `total_pages` of any earlier answer is not empty; and when page
`n + 1` is short, every row that was there when the first page was read is on one of the
pages, if no boundary it read across fell within rows of one time. -/
theorem scroll_misses_nothing {env : Env} (s : Scroll env) (l : Listing)
    (orders : Nat → CreatedAtOrder) (q : Int) (n : Nat)
    (hfit : n * (⟨1, q⟩ : PaginationQuery).clampedLimit < 2 ^ 63)
    (hsplits : ∀ k < n, ¬ Splits (fun r : Transaction => r.createdAt) (s.now l k)
      ((k + 1) * (⟨1, q⟩ : PaginationQuery).clampedLimit.toNat)) :
    ∃ answers : Nat → PaginatedTransactionsResponse,
      (∀ k ≤ n, s.answer l orders q k = .ok (answers k)) ∧
      (∀ k ≤ n, ∀ item ∈ (answers k).data, ∃ row ∈ s.now l n, item = transactionItem row) ∧
      ((s.now l n).length < 2 ^ 53 → ∀ k ≤ n, ∀ j ≤ k,
        (answers k).page ≤ (answers j).totalPages → (answers k).data ≠ []) ∧
      (((answers n).data.length : Int) < (⟨1, q⟩ : PaginationQuery).clampedLimit →
        ∀ row ∈ s.now l 0, ∃ k ≤ n, transactionItem row ∈ (answers k).data) := by
  obtain ⟨hlo, hhi⟩ := (⟨1, q⟩ : PaginationQuery).clampedLimit_bounds
  obtain ⟨limit, hlimit⟩ : ∃ limit : Nat, (⟨1, q⟩ : PaginationQuery).clampedLimit = limit :=
    Int.eq_ofNat_of_zero_le (by omega)
  rw [hlimit, Int.toNat_natCast] at hsplits
  rw [hlimit] at hfit hlo hhi
  rw [hlimit]
  refine ⟨fun k =>
    { data := (slice limit (k * limit) ((orders k).sort (s.now l k))).map transactionItem
      totalCount := (l.rows (s.counted k).world.pg).length
      page := k + 1
      totalPages := totalPages (l.rows (s.counted k).world.pg).length limit }, ?_, ?_, ?_, ?_⟩
  · intro k hk
    refine Scroll.answer_eq hlimit ?_
    have hle := Nat.mul_le_mul_right limit hk
    omega
  · intro k hk item hitem
    obtain ⟨row, hrow, rfl⟩ := List.mem_map.mp hitem
    have hsorted := List.mem_of_mem_drop (List.mem_of_mem_take hrow)
    exact ⟨row, (Scroll.now_mono hk).subset (((orders k).perm _).mem_iff.mp hsorted), rfl⟩
  · intro hcount k hk j hj hpage hnil
    have hlen := (Scroll.now_mono (s := s) (l := l) hk).length_le
    exact Scroll.page_ne_nil (by omega) (by omega) (by omega) hj hpage (orders k)
      (List.map_eq_nil_iff.mp hnil)
  · intro hshort row hrow
    dsimp only at hshort
    rw [List.length_map] at hshort
    have hgrows : ∀ k, (s.now l k).Sublist (s.now l (k + 1)) := Scroll.now_grows
    obtain ⟨k, hk, hread⟩ := read_of_short orders hgrows hsplits (by omega) hrow
    exact ⟨k, Nat.le_of_lt_succ hk, List.mem_map_of_mem hread⟩

/-- A moment after the credit. -/
def momentLater : State :=
  { oneCredit with world :=
    { oneCredit.world with appNow := oneCredit.world.appNow + 1, dbNow := oneCredit.world.dbNow + 1 } }

/-- And after a second credit, of 200. -/
def twoCredits : State :=
  request defaultEnv momentLater (.creditUser ⟨1002⟩ ⟨1008⟩ ⟨⟨9⟩, 200, none⟩)

theorem twoCredits_reach : (machine defaultEnv).Reach (fun _ _ => True) oneCredit twoCredits := by
  have hmoment : (machine defaultEnv).Reach (fun _ _ => True) oneCredit momentLater :=
    .tail (l := .env (.clock 1 1)) .refl trivial rfl
  have hrequest := (request_reach defaultEnv momentLater
    (.creditUser ⟨1002⟩ ⟨1008⟩ ⟨⟨9⟩, 200, none⟩)).mono (fun _ _ _ => trivial)
  exact (hmoment.tail trivial ((machine defaultEnv).step_arrive _ _)).trans hrequest

/-- The second credit comes between the count and the page of the first answer. -/
def scrollWhileCredited : Scroll defaultEnv where
  counted k := if k = 0 then oneCredit else twoCredits
  shown _ := twoCredits
  reachable := oneCredit_reachable
  reads k := by
    by_cases hk : k = 0
    · rw [if_pos hk]
      exact twoCredits_reach
    · rw [if_neg hk]
      exact .refl
  goesOn _ := .refl

/-- With one row a page, the first answer says that there is one page, and it is not the page
of the first credit; reading until a page is short finds that on the second page. -/
theorem scroll_misses_nothing_twoCredits :
    (∃ a, scrollWhileCredited.answer (.ofProvider ⟨1002⟩) (fun _ => .stable _) 1 0 = .ok a ∧
      a.totalPages = 1 ∧ a.data.map (·.amount) = [200]) ∧
    ∀ row ∈ oneCredit.world.pg.transactionsOfProvider ⟨1002⟩, ∃ k ≤ 2, ∃ a,
      scrollWhileCredited.answer (.ofProvider ⟨1002⟩) (fun _ => .stable _) 1 k = .ok a ∧
      transactionItem row ∈ a.data := by
  have hnow : ∀ k, scrollWhileCredited.now (.ofProvider ⟨1002⟩) k =
      twoCredits.world.pg.transactionsOfProvider ⟨1002⟩ := fun _ => rfl
  have hrows : (∀ k < 2, ¬ Splits (fun r : Transaction => r.createdAt)
        (twoCredits.world.pg.transactionsOfProvider ⟨1002⟩) (k + 1)) ∧
      (twoCredits.world.pg.transactionsOfProvider ⟨1002⟩).length = 2 ∧
      (oneCredit.world.pg.transactionsOfProvider ⟨1002⟩).length = 1 ∧
      (slice 1 0 ((DescendingBy.stable (fun r : Transaction => r.createdAt)).sort
        (twoCredits.world.pg.transactionsOfProvider ⟨1002⟩))).map (·.amount) = [200] := by
    decide +kernel
  obtain ⟨hsplits, hlength, hone, hfirst⟩ := hrows
  have hlimit : ∀ k : Int, (⟨k, 1⟩ : PaginationQuery).clampedLimit = 1 := fun _ => rfl
  constructor
  · refine ⟨_, Scroll.answer_eq (hlimit _) (by omega), ?_, ?_⟩
    · obtain ⟨count, hcount, hlo, hhi⟩ := @totalPages_spec 1 1 (by omega) (by omega) (by omega)
      obtain rfl : count = 1 := by omega
      show totalPages (oneCredit.world.pg.transactionsOfProvider ⟨1002⟩).length 1 = 1
      rw [hone]
      exact hcount
    · rw [List.map_map]
      exact hfirst
  · intro row hrow
    obtain ⟨answers, hanswers, -, -, hall⟩ := scroll_misses_nothing scrollWhileCredited
      (.ofProvider ⟨1002⟩) (fun _ => .stable _) 1 2 (by rw [hlimit]; omega)
      (fun k hk => by rw [hnow, hlimit]; exact (Nat.mul_one (k + 1)).symm ▸ hsplits k hk)
    have hlast : (answers 2).data = [] := by
      have heq := (hanswers 2 (Nat.le_refl 2)).symm.trans
        (Scroll.answer_eq (hlimit _) (show 2 * 1 < 2 ^ 63 by omega))
      rw [Except.ok.inj heq, List.map_eq_nil_iff, hnow]
      unfold slice
      rw [List.drop_eq_nil_of_le, List.take_nil]
      rw [((DescendingBy.stable _).perm _).length_eq, hlength]
    have hshown : row ∈ scrollWhileCredited.now (.ofProvider ⟨1002⟩) 0 :=
      Scroll.counted_now (s := scrollWhileCredited) (l := .ofProvider ⟨1002⟩) 0 |>.subset hrow
    obtain ⟨k, hk, hmem⟩ := hall (by rw [hlast]; decide) row hshown
    exact ⟨k, hk, _, hanswers k hk, hmem⟩

end Wurzburg.System
