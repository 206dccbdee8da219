import Wurzburg.Db.Sql
import Wurzburg.Lib.Binary64
import Wurzburg.Lib.Paging

/-!
# Wurzburg.Api.Pagination

`get_provider_transactions` and `get_user_transactions`: the journal read page by
page (`api/handlers/transaction.rs`, `db/postgres/transaction.rs`).

Each query counts the rows, and reads one page of them in the order of
`created_at`, which is not unique: what a query returns depends on how PostgreSQL
orders the ties of that query (`CreatedAtOrder`). The pages of one size partition the
journal exactly when the offset fits into 64 bits and no boundary between two pages
falls within rows of one time (`transactions_partition_iff`).
-/

namespace Wurzburg.Db

open Wurzburg.Lib.Paging

/-- `ORDER BY created_at DESC` -/
abbrev CreatedAtOrder := DescendingBy (fun r : Transaction => r.createdAt)

/-- `SELECT … WHERE provider_id = $1` -/
def Pg.transactionsOfProvider (pg : Pg) (providerId : Uuid) : List Transaction :=
  pg.transactions.filter (fun r => r.providerId = some providerId)

/-- `SELECT … WHERE provider_id = $1 AND user_id = $2` -/
def Pg.transactionsOfUser (pg : Pg) (providerId userId : Uuid) : List Transaction :=
  pg.transactions.filter (fun r => r.providerId = some providerId ∧ r.userId = some userId)

/-- The two queries of the repository methods: the rows of a page, and `count(*)`. -/
def selectPage (order : CreatedAtOrder) (rows : List Transaction) (limit offset : Int) :
    Except SqlError (List Transaction × Int) :=
  if offset < 0 then .error (.raised "OFFSET must not be negative")
  else .ok (slice limit.toNat offset.toNat (order.sort rows), rows.length)

/-- `get_provider_transactions` of the repository -/
def getProviderTransactions (order : CreatedAtOrder) (pg : Pg) (providerId : Uuid)
    (limit offset : Int) : Except SqlError (List Transaction × Int) :=
  selectPage order (pg.transactionsOfProvider providerId) limit offset

/-- `get_user_transactions` of the repository -/
def getUserTransactions (order : CreatedAtOrder) (pg : Pg) (providerId userId : Uuid)
    (limit offset : Int) : Except SqlError (List Transaction × Int) :=
  selectPage order (pg.transactionsOfUser providerId userId) limit offset

end Wurzburg.Db

namespace Wurzburg.Api

open Wurzburg.Db Wurzburg.Lib.Paging Wurzburg.Lib.Binary64

/-! ### The handlers -/

/-- `PaginationQuery`, with its defaults. -/
structure PaginationQuery where
  page : Int := 1
  limit : Int := 20
  deriving DecidableEq, Repr

/-- `TransactionItem` -/
structure TransactionItem where
  id : Uuid
  idempotencyKey : String
  transactionType : TransactionType
  amount : Int
  drAccountId : Uuid
  crAccountId : Uuid
  userId : Option Uuid
  providerId : Option Uuid
  status : TransactionStatus
  createdAt : Timestamp
  deriving DecidableEq, Repr

/-- `PaginatedTransactionsResponse` -/
structure PaginatedTransactionsResponse where
  data : List TransactionItem
  totalCount : Int
  page : Int
  totalPages : Int
  deriving DecidableEq, Repr

/-- The item of a row. -/
def transactionItem (tx : Transaction) : TransactionItem where
  id := tx.id
  idempotencyKey := tx.idempotencyKey
  transactionType := tx.transactionType
  amount := tx.amount
  drAccountId := tx.drAccountId
  crAccountId := tx.crAccountId
  userId := tx.userId
  providerId := tx.providerId
  status := tx.status
  createdAt := tx.createdAt

/-- `i64` multiplication in release mode. -/
def mulI64 (a b : Int) : Int := wrap64 (a * b)

/-- `x as f64` -/
def asF64 (x : Int) : ℚ := nearest x

/-- `f64` division. -/
def divF64 (a b : ℚ) : ℚ := nearest (a / b)

/-- `x.ceil() as i64`: a cast of a float saturates. -/
def ceilAsI64 (x : ℚ) : Int := max (-2 ^ 63) (min ⌈x⌉ (2 ^ 63 - 1))

namespace PaginationQuery

variable (q : PaginationQuery)

/-- `pagination.limit.max(1).min(100)` -/
def clampedLimit : Int := min (max q.limit 1) 100

/-- `pagination.page.max(1)` -/
def clampedPage : Int := max q.page 1

/-- `(page - 1) * limit` -/
def offset : Int := mulI64 (subI64 q.clampedPage 1) q.clampedLimit

end PaginationQuery

/-- `(total_count as f64 / limit as f64).ceil() as i64` -/
def totalPages (totalCount limit : Int) : Int := ceilAsI64 (divF64 (asF64 totalCount) (asF64 limit))

/-- What both handlers do with the repository's method. -/
def answerPage (method : Int → Int → Except SqlError (List Transaction × Int))
    (pagination : PaginationQuery) : Except HttpError PaginatedTransactionsResponse :=
  match method pagination.clampedLimit pagination.offset with
  | .error e => .error (.internalServerError, e.display)
  | .ok (dbTxs, totalCount) => .ok
      { data := dbTxs.map transactionItem
        totalCount := totalCount
        page := pagination.clampedPage
        totalPages := totalPages totalCount pagination.clampedLimit }

/-- `get_provider_transactions` -/
def getProviderTransactions (pg : Pg) (providerId : Uuid) (order : CreatedAtOrder)
    (pagination : PaginationQuery) : Except HttpError PaginatedTransactionsResponse :=
  answerPage (Db.getProviderTransactions order pg providerId) pagination

/-- `get_user_transactions` -/
def getUserTransactions (pg : Pg) (providerId userId : Uuid) (order : CreatedAtOrder)
    (pagination : PaginationQuery) : Except HttpError PaginatedTransactionsResponse :=
  answerPage (Db.getUserTransactions order pg providerId userId) pagination

/-! ### Numbers -/

section

variable {q : PaginationQuery}

theorem PaginationQuery.clampedLimit_bounds (q : PaginationQuery) :
    1 ≤ q.clampedLimit ∧ q.clampedLimit ≤ 100 := by
  unfold clampedLimit
  omega

theorem PaginationQuery.one_le_clampedPage (q : PaginationQuery) : 1 ≤ q.clampedPage := by
  unfold clampedPage
  omega

theorem wrap64_lt (z : Int) : wrap64 z < 2 ^ 63 := by
  have h : wrap64 z < ((2 ^ 64 : Nat) + 1) / 2 := Int.bmod_lt (by norm_num)
  omega

/-- The offset is the exact product as long as that fits. -/
theorem PaginationQuery.offset_eq (h : (q.clampedPage - 1) * q.clampedLimit < 2 ^ 63) :
    q.offset = (q.clampedPage - 1) * q.clampedLimit := by
  have hpage := q.one_le_clampedPage
  have hlimit := q.clampedLimit_bounds.1
  have hle : q.clampedPage - 1 ≤ (q.clampedPage - 1) * q.clampedLimit :=
    le_mul_of_one_le_right (by omega) hlimit
  have hsub : wrap64 (q.clampedPage - 1) = q.clampedPage - 1 :=
    wrap64_of_bounds (by omega) (by omega)
  unfold offset mulI64 subI64
  rw [hsub, wrap64_of_bounds (by omega) h]

/-- **The offset overflows exactly when the product does not fit.** -/
theorem PaginationQuery.offset_iff :
    q.offset = (q.clampedPage - 1) * q.clampedLimit ∧ 0 ≤ q.offset ↔
      (q.clampedPage - 1) * q.clampedLimit < 2 ^ 63 := by
  constructor
  · intro h
    rw [← h.1]
    exact wrap64_lt _
  · intro h
    have hpage := q.one_le_clampedPage
    have hlimit := q.clampedLimit_bounds.1
    rw [offset_eq h]
    exact ⟨rfl, mul_nonneg (by omega) (by omega)⟩

/-- `total_pages` is the number of pages that hold all rows: no fewer, no more. -/
theorem totalPages_spec {n limit : Nat} (hlimit : 0 < limit) (hmax : limit ≤ 100)
    (hn : n < 2 ^ 53) :
    ∃ count : Nat, totalPages n limit = count ∧ n ≤ count * limit ∧ count * limit < n + limit := by
  have hfloat : totalPages n limit = max (-2 ^ 63) (min ⌈(n : ℚ) / limit⌉ (2 ^ 63 - 1)) := by
    have hn' : asF64 n = n := by exact_mod_cast nearest_natCast hn
    have hlimit' : asF64 limit = limit := by
      exact_mod_cast nearest_natCast (show limit < 2 ^ 53 by omega)
    unfold totalPages ceilAsI64 divF64
    rw [hn', hlimit', ceil_nearest_div hlimit hn]
  have hpos : (0 : ℚ) < limit := by exact_mod_cast hlimit
  obtain ⟨count, hcount⟩ : ∃ count : Nat, ⌈(n : ℚ) / limit⌉ = count :=
    Int.eq_ofNat_of_zero_le (Int.ceil_nonneg (by positivity))
  have hlo : n ≤ count * limit := by
    have hle := Int.le_ceil ((n : ℚ) / limit)
    rw [hcount, div_le_iff₀ hpos] at hle
    exact_mod_cast hle
  have hhi : count * limit < n + limit := by
    have hlt := Int.ceil_lt_add_one ((n : ℚ) / limit)
    rw [hcount] at hlt
    have hmul := mul_lt_mul_of_pos_right hlt hpos
    rw [add_mul, div_mul_cancel₀ _ hpos.ne', one_mul] at hmul
    exact_mod_cast hmul
  have hle : count ≤ count * limit := Nat.le_mul_of_pos_right count hlimit
  refine ⟨count, ?_, hlo, hhi⟩
  rw [hfloat, hcount]
  omega

end

/-! ### Pages -/

section

variable {order : CreatedAtOrder} {rows : List Transaction} {q : PaginationQuery}

/-- Both handlers answer with a page of the rows they are about. -/
def pageOf (rows : List Transaction) (order : CreatedAtOrder) (q : PaginationQuery) :
    Except HttpError PaginatedTransactionsResponse :=
  answerPage (selectPage order rows) q

theorem getProviderTransactions_eq (pg : Pg) (providerId : Uuid) :
    getProviderTransactions pg providerId = pageOf (pg.transactionsOfProvider providerId) := rfl

theorem getUserTransactions_eq (pg : Pg) (providerId userId : Uuid) :
    getUserTransactions pg providerId userId = pageOf (pg.transactionsOfUser providerId userId) :=
  rfl

/-- The answer, where the offset does not overflow. -/
theorem pageOf_eq {offset limit : Nat} (hoffset : (q.clampedPage - 1) * q.clampedLimit = offset)
    (hlimit : q.clampedLimit = limit) (h : offset < 2 ^ 63) :
    pageOf rows order q = .ok
      { data := (slice limit offset (order.sort rows)).map transactionItem
        totalCount := rows.length
        page := q.clampedPage
        totalPages := totalPages rows.length limit } := by
  have heq : q.offset = offset := by
    rw [PaginationQuery.offset_eq (by omega), hoffset]
  unfold pageOf answerPage selectPage
  rw [heq, hlimit, if_neg (by omega)]
  rfl

/-- The transactions of the pages `1` to `count`, requested one by one, each answered
under the order of its own query. -/
def readPages (request : CreatedAtOrder → PaginationQuery →
      Except HttpError PaginatedTransactionsResponse)
    (orders : Nat → CreatedAtOrder) (limit : Int) (count : Nat) :
    Except HttpError (List TransactionItem) := do
  let responses ← (List.range count).mapM (fun k => request (orders k) ⟨k + 1, limit⟩)
  return responses.flatMap (·.data)

/-- Requests that are all answered. -/
theorem mapM_ok {ε α β : Type} {f : α → Except ε β} {g : α → β} {xs : List α}
    (h : ∀ x ∈ xs, f x = .ok (g x)) : xs.mapM f = .ok (xs.map g) := by
  induction xs with
  | nil => rfl
  | cons x xs ih =>
      rw [List.mapM_cons, h x (List.mem_cons_self ..),
        ih (fun y hy => h y (List.mem_cons_of_mem x hy))]
      rfl

theorem readPages_eq {orders : Nat → CreatedAtOrder} {limit count : Nat}
    (hlimit : q.clampedLimit = limit) (hcount : count * limit < 2 ^ 63 + limit) :
    readPages (pageOf rows) orders q.limit count =
      .ok ((pages orders limit count rows).map transactionItem) := by
  have hpage : ∀ k ∈ List.range count, pageOf rows (orders k) ⟨k + 1, q.limit⟩ = .ok
      { data := (slice limit (k * limit) ((orders k).sort rows)).map transactionItem
        totalCount := rows.length
        page := k + 1
        totalPages := totalPages rows.length limit } := by
    intro k hk
    have hlt : k < count := List.mem_range.mp hk
    have hle := Nat.mul_le_mul_right limit (Nat.succ_le_of_lt hlt)
    rw [Nat.succ_mul] at hle
    have hfirst : (⟨k + 1, q.limit⟩ : PaginationQuery).clampedPage = (k : Int) + 1 := by
      show max ((k : Int) + 1) 1 = _
      omega
    have hlimit' : (⟨k + 1, q.limit⟩ : PaginationQuery).clampedLimit = limit := hlimit
    have hoffset : ((⟨k + 1, q.limit⟩ : PaginationQuery).clampedPage - 1) *
        (⟨k + 1, q.limit⟩ : PaginationQuery).clampedLimit = (k * limit : Nat) := by
      rw [hfirst, hlimit']
      push_cast
      ring
    have heq := @pageOf_eq (orders k) rows _ _ _ hoffset hlimit' (by omega)
    rw [hfirst] at heq
    exact heq
  unfold readPages pages
  rw [mapM_ok hpage]
  show Except.ok _ = Except.ok _
  rw [List.flatMap_map, List.map_flatMap]

/-- What is asked of pages of one size: the offset is computed exactly and is not negative,
the pages up to `total_pages` are every transaction once, and there is nothing beyond. -/
structure Partitions (request : CreatedAtOrder → PaginationQuery →
      Except HttpError PaginatedTransactionsResponse)
    (rows : List Transaction) (q : PaginationQuery) : Prop where
  offset : q.offset = (q.clampedPage - 1) * q.clampedLimit ∧ 0 ≤ q.offset
  pages : ∀ orders : Nat → CreatedAtOrder, ∃ data,
    readPages request orders q.limit (totalPages rows.length q.clampedLimit).toNat = .ok data ∧
      data.Perm (rows.map transactionItem)
  beyond : totalPages rows.length q.clampedLimit < q.page → ∀ order, ∃ r,
    request order q = .ok r ∧ r.data = []

/-- The offset fits, and no boundary between two pages falls within rows of one time. -/
def Pageable (rows : List Transaction) (q : PaginationQuery) : Prop :=
  (q.clampedPage - 1) * q.clampedLimit < 2 ^ 63 ∧
    ∀ k : Nat, ¬ Splits (fun r => r.createdAt) rows (k * q.clampedLimit.toNat)

/-- Rows that are told apart by their ids. -/
theorem nodup_items (hids : (rows.map (·.id)).Nodup) : (rows.map transactionItem).Nodup := by
  refine List.Nodup.of_map (·.id) ?_
  rw [List.map_map]
  exact hids

/-- **Pages partition the rows exactly when they are pageable.** -/
theorem pageOf_partitions_iff (hids : (rows.map (·.id)).Nodup) (hcount : rows.length < 2 ^ 53) :
    Partitions (pageOf rows) rows q ↔ Pageable rows q := by
  obtain ⟨hlo, hhi⟩ := q.clampedLimit_bounds
  obtain ⟨limit, hlimit⟩ := Int.eq_ofNat_of_zero_le (show 0 ≤ q.clampedLimit by omega)
  have hpos : 0 < limit := by omega
  obtain ⟨count, htotal, hlen, hmin⟩ := @totalPages_spec rows.length limit hpos (by omega) hcount
  rw [← hlimit] at htotal
  have hread : ∀ orders, readPages (pageOf rows) orders q.limit
      (totalPages rows.length q.clampedLimit).toNat =
        .ok ((pages orders limit count rows).map transactionItem) := by
    intro orders
    rw [htotal, Int.toNat_natCast]
    exact readPages_eq hlimit (by omega)
  unfold Pageable
  rw [hlimit, Int.toNat_natCast, ← hlimit]
  constructor
  · intro h
    refine ⟨PaginationQuery.offset_iff.mp h.offset, fun k hsplit => ?_⟩
    -- A boundary within rows of one time: two orders that PostgreSQL may choose show a row twice.
    obtain ⟨orders, hnot⟩ := exists_not_nodup hpos hlen hsplit
    obtain ⟨data, hdata, hperm⟩ := h.pages orders
    rw [hread] at hdata
    obtain rfl := Except.ok.inj hdata
    exact hnot (List.Nodup.of_map _ (hperm.nodup_iff.mpr (nodup_items hids)))
  · rintro ⟨hoffset, hsplits⟩
    refine ⟨PaginationQuery.offset_iff.mpr hoffset, fun orders => ?_, fun hbeyond order => ?_⟩
    · exact ⟨_, hread orders, (pages_perm orders hlen hsplits).map _⟩
    · have hpage := q.one_le_clampedPage
      obtain ⟨page, hpage'⟩ := Int.eq_ofNat_of_zero_le (show 0 ≤ q.clampedPage - 1 by omega)
      -- Beyond the last page the offset is past every row, in whatever order they come.
      have hle : count ≤ page := by
        have hclamped : q.page ≤ q.clampedPage := Int.le_max_left _ _
        omega
      have hprod : (q.clampedPage - 1) * q.clampedLimit = (page * limit : Nat) := by
        rw [hpage', hlimit]
        push_cast
        ring
      refine ⟨_, pageOf_eq hprod hlimit (by omega), ?_⟩
      have hdrop : rows.length ≤ page * limit := hlen.trans (Nat.mul_le_mul_right limit hle)
      show (slice limit (page * limit) (order.sort rows)).map transactionItem = []
      unfold slice
      rw [List.drop_eq_nil_of_le (by rw [(order.perm rows).length_eq]; exact hdrop), List.take_nil,
        List.map_nil]

end

/-- **`get_provider_transactions` and `get_user_transactions` page through a journal without
loss or repetition** exactly when the offset fits and no boundary between two pages falls
within transactions of one time. -/
theorem transactions_partition_iff (pg : Pg) (hids : (pg.transactions.map (·.id)).Nodup)
    (hcount : pg.transactions.length < 2 ^ 53) (providerId userId : Uuid) (q : PaginationQuery) :
    (Partitions (getProviderTransactions pg providerId) (pg.transactionsOfProvider providerId) q ↔
      Pageable (pg.transactionsOfProvider providerId) q) ∧
    (Partitions (getUserTransactions pg providerId userId)
        (pg.transactionsOfUser providerId userId) q ↔
      Pageable (pg.transactionsOfUser providerId userId) q) := by
  have hfilter : ∀ p : Transaction → Bool, (pg.transactions.filter p).length < 2 ^ 53 :=
    fun p => (List.length_filter_le _ _).trans_lt hcount
  have hids' : ∀ p : Transaction → Bool, ((pg.transactions.filter p).map (·.id)).Nodup :=
    fun p => hids.sublist (List.filter_sublist.map _)
  rw [getProviderTransactions_eq, getUserTransactions_eq]
  exact ⟨pageOf_partitions_iff (hids' _) (hfilter _), pageOf_partitions_iff (hids' _) (hfilter _)⟩

/-- A row of provider 1 and user 30, written at time 0. -/
def atOnce (n : Nat) (key : String) : Transaction :=
  Tx.transactionRow 0
    { id := ⟨BitVec.ofNat 128 n⟩
      idempotencyKey := key
      transactionType := .credit
      amount := 500
      drAccountId := ⟨11⟩
      crAccountId := ⟨21⟩
      providerId := ⟨1⟩
      userId := ⟨30⟩
      description := none }

/-- Two transactions of one time. -/
def twoAtOnce : Pg := { Pg.empty with transactions := [atOnce 40 "first", atOnce 41 "second"] }

theorem twoAtOnce_of : twoAtOnce.transactionsOfProvider ⟨1⟩ = twoAtOnce.transactions ∧
    twoAtOnce.transactionsOfUser ⟨1⟩ ⟨30⟩ = twoAtOnce.transactions := by
  decide +kernel

/-- A page of two holds both; with one transaction a page, the boundary is between them. -/
theorem transactions_partition_iff_twoAtOnce :
    Partitions (getProviderTransactions twoAtOnce ⟨1⟩) (twoAtOnce.transactionsOfProvider ⟨1⟩)
      ⟨1, 2⟩ ∧
    Partitions (getUserTransactions twoAtOnce ⟨1⟩ ⟨30⟩) (twoAtOnce.transactionsOfUser ⟨1⟩ ⟨30⟩)
      ⟨1, 2⟩ ∧
    ¬ Partitions (getProviderTransactions twoAtOnce ⟨1⟩) (twoAtOnce.transactionsOfProvider ⟨1⟩)
      ⟨1, 1⟩ := by
  have hids : (twoAtOnce.transactions.map (·.id)).Nodup := by decide +kernel
  have hiff := fun q => transactions_partition_iff twoAtOnce hids (by decide) ⟨1⟩ ⟨30⟩ q
  obtain ⟨hprovider, huser⟩ := twoAtOnce_of
  rw [hprovider, huser] at hiff
  rw [hprovider, huser]
  have hpageable : Pageable twoAtOnce.transactions ⟨1, 2⟩ := by
    refine ⟨by decide, ?_⟩
    rintro k ⟨r, hr, hlo, hhi⟩
    have hmax := upTo_le_length (fun r : Transaction => r.createdAt) twoAtOnce.transactions
      ((fun r => r.createdAt) r)
    have htwo : twoAtOnce.transactions.length = 2 := rfl
    have hlimit : (⟨1, 2⟩ : PaginationQuery).clampedLimit.toNat = 2 := rfl
    rw [hlimit] at hlo hhi
    omega
  refine ⟨(hiff ⟨1, 2⟩).1.mpr hpageable, (hiff ⟨1, 2⟩).2.mpr hpageable, fun h => ?_⟩
  have hsplit : Splits (fun r : Transaction => r.createdAt) twoAtOnce.transactions 1 := by
    decide +kernel
  exact ((hiff ⟨1, 1⟩).1.mp h).2 1 hsplit

/-- The query for the second page orders the ties the other way round. -/
def eitherWay (k : Nat) : CreatedAtOrder :=
  if k = 0 then .stable _ else (DescendingBy.stable _).backwards

/-- The first transaction is on both pages and the second one on none; and a page far beyond
the last one starts at offset 0 again. -/
theorem twoAtOnce_repeated :
    totalPages 2 1 = 2 ∧
    readPages (getProviderTransactions twoAtOnce ⟨1⟩) eitherWay 1 2 =
      .ok [transactionItem (atOnce 40 "first"), transactionItem (atOnce 40 "first")] ∧
    readPages (getUserTransactions twoAtOnce ⟨1⟩ ⟨30⟩) eitherWay 1 2 =
      .ok [transactionItem (atOnce 40 "first"), transactionItem (atOnce 40 "first")] ∧
    (⟨2 ^ 62 + 1, 100⟩ : PaginationQuery).offset = 0 ∧
    ¬ Partitions (getProviderTransactions twoAtOnce ⟨1⟩) (twoAtOnce.transactionsOfProvider ⟨1⟩)
      ⟨1, 1⟩ ∧
    ¬ Partitions (getProviderTransactions twoAtOnce ⟨1⟩) (twoAtOnce.transactionsOfProvider ⟨1⟩)
      ⟨2 ^ 62 + 1, 100⟩ := by
  have htotal : totalPages 2 1 = 2 := by
    obtain ⟨count, hcount, hlo, hhi⟩ := @totalPages_spec 2 1 (by omega) (by omega) (by omega)
    obtain rfl : count = 2 := by omega
    exact hcount
  have hread : readPages (getProviderTransactions twoAtOnce ⟨1⟩) eitherWay 1 2 =
        .ok [transactionItem (atOnce 40 "first"), transactionItem (atOnce 40 "first")] ∧
      readPages (getUserTransactions twoAtOnce ⟨1⟩ ⟨30⟩) eitherWay 1 2 =
        .ok [transactionItem (atOnce 40 "first"), transactionItem (atOnce 40 "first")] ∧
      (⟨2 ^ 62 + 1, 100⟩ : PaginationQuery).offset = 0 := by
    decide +kernel
  refine ⟨htotal, hread.1, hread.2.1, hread.2.2, fun h => ?_, fun h => ?_⟩
  · obtain ⟨data, hdata, hperm⟩ := h.pages eitherWay
    have hcount : (totalPages (twoAtOnce.transactionsOfProvider ⟨1⟩).length
        (⟨1, 1⟩ : PaginationQuery).clampedLimit).toNat = 2 := by
      rw [twoAtOnce_of.1]
      exact congrArg Int.toNat htotal
    rw [hcount, hread.1] at hdata
    obtain rfl := Except.ok.inj hdata
    rw [twoAtOnce_of.1] at hperm
    exact absurd hperm (by decide +kernel)
  · have hoffset := h.offset.1
    rw [hread.2.2] at hoffset
    exact absurd hoffset (by decide)

end Wurzburg.Api
