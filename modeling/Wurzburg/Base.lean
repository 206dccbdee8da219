import Mathlib.Data.List.Infix
import Mathlib.Tactic.NormNum.Basic

/-!
# Wurzburg.Base

The small types every layer shares: UUIDs and their text form, the machine
integers of the source with the casts between them, timestamps, and HTTP
status codes.

Unsigned integers that only pass through are `Nat`, signed ones `Int`; wherever
the source narrows or does arithmetic at a fixed width, the cast is written
out (`asI64`, `subI64`, …), so overflow is visible in the definitions.
-/

namespace Wurzburg

/-! ### UUIDs -/

/-- A UUID. -/
structure Uuid where
  bits : BitVec 128
  deriving DecidableEq, Repr

namespace Uuid

/-- `Uuid::as_u128`: the ledger's id for the same object. -/
def asU128 (u : Uuid) : Nat := u.bits.toNat

theorem asU128_inj {u v : Uuid} : u.asU128 = v.asU128 ↔ u = v := by
  constructor
  · intro h
    cases u
    cases v
    simpa [asU128, BitVec.toNat_inj] using h
  · rintro rfl
    rfl

/-- A lower-case hexadecimal digit. -/
def hexDigit (n : Nat) : Char :=
  if n < 10 then Char.ofNat (48 + n) else Char.ofNat (87 + n)

/-- The last `k` hexadecimal digits of `n`, most significant first. -/
def hexDigits : Nat → Nat → List Char
  | 0, _ => []
  | k + 1, n => hexDigits k (n / 16) ++ [hexDigit (n % 16)]

/-- The hyphenated form, as characters: groups of 8, 4, 4, 4 and 12 digits. -/
def hyphenated (u : Uuid) : List Char :=
  let n := u.asU128
  hexDigits 8 (n / 2 ^ 96) ++ '-' :: hexDigits 4 (n / 2 ^ 80) ++
    '-' :: hexDigits 4 (n / 2 ^ 64) ++ '-' :: hexDigits 4 (n / 2 ^ 48) ++
    '-' :: hexDigits 12 n

/-- `Uuid::to_string`: the hyphenated form. -/
def toString (u : Uuid) : String := String.ofList u.hyphenated

/-- `Uuid::simple`: the form without hyphens. -/
def simple (u : Uuid) : String := String.ofList (hexDigits 32 u.asU128)

theorem hexDigits_length (k n : Nat) : (hexDigits k n).length = k := by
  induction k generalizing n with
  | zero => rfl
  | succ k ih => simp [hexDigits, ih]

private theorem hexDigit_inj : ∀ a b : Fin 16, hexDigit a = hexDigit b → a = b := by decide

/-- The last `k` digits determine a number modulo `16 ^ k`. -/
theorem hexDigits_inj {k : Nat} : ∀ {a b : Nat}, hexDigits k a = hexDigits k b →
    a % 16 ^ k = b % 16 ^ k := by
  induction k with
  | zero => intro a b _; simp [Nat.mod_one]
  | succ k ih =>
      intro a b h
      obtain ⟨hhi, hlo⟩ := List.append_inj h (by simp [hexDigits_length])
      have hdigit : a % 16 = b % 16 := by
        have := hexDigit_inj ⟨a % 16, Nat.mod_lt _ (by decide)⟩
          ⟨b % 16, Nat.mod_lt _ (by decide)⟩ (by simpa using hlo)
        simpa using this
      have hrest := ih hhi
      rw [Nat.pow_succ, Nat.mul_comm, Nat.mod_mul, Nat.mod_mul, hdigit, hrest]

/-- Different UUIDs print differently. -/
theorem toString_inj {u v : Uuid} : u.toString = v.toString ↔ u = v := by
  constructor
  · intro h
    have hchars := String.ofList_injective h
    simp only [hyphenated, List.append_assoc, List.cons_append] at hchars
    obtain ⟨h₁, hchars⟩ := List.append_inj hchars (by simp [hexDigits_length])
    obtain ⟨h₂, hchars⟩ := List.append_inj (List.cons.inj hchars).2 (by simp [hexDigits_length])
    obtain ⟨h₃, hchars⟩ := List.append_inj (List.cons.inj hchars).2 (by simp [hexDigits_length])
    obtain ⟨h₄, hchars⟩ := List.append_inj (List.cons.inj hchars).2 (by simp [hexDigits_length])
    have e₁ := hexDigits_inj h₁
    have e₂ := hexDigits_inj h₂
    have e₃ := hexDigits_inj h₃
    have e₄ := hexDigits_inj h₄
    have e₅ := hexDigits_inj (List.cons.inj hchars).2
    have hu : u.asU128 < 2 ^ 128 := u.bits.isLt
    have hv : v.asU128 < 2 ^ 128 := v.bits.isLt
    refine asU128_inj.mp ?_
    omega
  · rintro rfl
    rfl

theorem simple_inj {u v : Uuid} : u.simple = v.simple ↔ u = v := by
  constructor
  · intro h
    have hdigits := hexDigits_inj (String.ofList_injective h)
    have hu : u.asU128 < 2 ^ 128 := u.bits.isLt
    have hv : v.asU128 < 2 ^ 128 := v.bits.isLt
    refine asU128_inj.mp ?_
    omega
  · rintro rfl
    rfl

end Uuid

/-! ### Machine integers -/

/-- Two's-complement wrapping to 64 bits. -/
def wrap64 (z : Int) : Int := Int.bmod z (2 ^ 64)

/-- Two's-complement wrapping to 128 bits. -/
def wrap128 (z : Int) : Int := Int.bmod z (2 ^ 128)

/-- `x as u32` for a wider unsigned `x`. -/
def asU32 (n : Nat) : Nat := n % 2 ^ 32

/-- `x as i32` for a wider unsigned `x`. -/
def asI32 (n : Nat) : Int := Int.bmod n (2 ^ 32)

/-- `x as i64` for an unsigned `x` of 64 bits or more. -/
def asI64 (n : Nat) : Int := wrap64 n

/-- `i64` subtraction in release mode. -/
def subI64 (a b : Int) : Int := wrap64 (a - b)

/-- `i64` addition in release mode. -/
def addI64 (a b : Int) : Int := wrap64 (a + b)

/-- `x as i128` for a `u128`. -/
def asI128 (n : Nat) : Int := wrap128 n

/-- `i128` subtraction in release mode. -/
def subI128 (a b : Int) : Int := wrap128 (a - b)

theorem wrap64_of_bounds {z : Int} (hlo : -2 ^ 63 ≤ z) (hhi : z < 2 ^ 63) : wrap64 z = z := by
  unfold wrap64
  rw [Int.bmod_eq_of_le_mul_two] <;> omega

theorem asI64_of_lt {n : Nat} (h : n < 2 ^ 63) : asI64 n = n :=
  wrap64_of_bounds (by omega) (by omega)

/-- A 64-bit value with the top bit set turns negative. -/
theorem asI64_neg {n : Nat} (hlo : 2 ^ 63 ≤ n) (hhi : n < 2 ^ 64) : asI64 n = n - 2 ^ 64 := by
  have hmod : (n : Int) % (2 ^ 64 : Nat) = n := by omega
  unfold asI64 wrap64
  rw [Int.bmod_def, hmod, if_neg (by omega)]
  norm_num

/-- The cast of a 64-bit amount is positive exactly on the range a `BIGINT`
column with `CHECK (amount > 0)` can hold. -/
theorem asI64_pos_iff {n : Nat} (h : n < 2 ^ 64) : 0 < asI64 n ↔ 0 < n ∧ n < 2 ^ 63 := by
  by_cases hn : n < 2 ^ 63
  · rw [asI64_of_lt hn]
    omega
  · rw [asI64_neg (by omega) h]
    omega

/-! ### Checks in order -/

/-- The outcome of a list of checks made in order: the error of the first one
that fails. -/
def firstFailure {ε : Type} : List (Bool × ε) → Option ε
  | [] => none
  | (failed, e) :: rest => if failed then some e else firstFailure rest

theorem firstFailure_eq_none {ε : Type} {cs : List (Bool × ε)} :
    firstFailure cs = none ↔ ∀ c ∈ cs, c.1 = false := by
  induction cs with
  | nil => simp [firstFailure]
  | cons c cs ih =>
      obtain ⟨failed, e⟩ := c
      cases failed <;> simp [firstFailure, ih]

theorem mem_of_firstFailure {ε : Type} {cs : List (Bool × ε)} {e : ε}
    (h : firstFailure cs = some e) : (true, e) ∈ cs := by
  induction cs with
  | nil => cases h
  | cons c cs ih =>
      obtain ⟨failed, e'⟩ := c
      cases failed with
      | true =>
          obtain rfl := Option.some.inj h
          exact List.mem_cons_self ..
      | false => exact List.mem_cons_of_mem _ (ih h)

/-! ### Texts, timestamps, status codes -/

/-- PostgreSQL text cannot hold the NUL character. -/
def textOk (s : String) : Bool := s.toList.all (fun c => c.toNat != 0)

/-- PostgreSQL `JSONB` rejects the escape of the NUL character in a document. -/
def jsonbOk : List Char → Bool
  | '\\' :: 'u' :: '0' :: '0' :: '0' :: '0' :: _ => false
  | '\\' :: _ :: rest => jsonbOk rest
  | c :: rest => c.toNat != 0 && jsonbOk rest
  | [] => true

/-- What a `VARCHAR(n)` column makes of a text: blanks at the end are cut where there are too
many. -/
def varchar (n : Nat) (s : String) : String :=
  if (s.toList.drop n).all (· == ' ') then String.ofList (s.toList.take n) else s

/-- What fits a `VARCHAR(n)` column. The texts of a provider and an NID may end in blanks and are
cut before (`varchar`); the others cannot: a key is the text of a UUID or the value of a header,
which ends where its blanks begin, and the codes and names of system accounts are constants. -/
def varcharOk (n : Nat) (s : String) : Bool := textOk s && decide (s.length ≤ n)

theorem varchar_of_length_le {n : Nat} {s : String} (h : s.length ≤ n) : varchar n s = s := by
  have htake : s.toList.take n = s.toList := List.take_of_length_le (by rwa [String.length_toList])
  unfold varchar
  split
  · rw [htake, String.ofList_toList]
  · rfl

theorem varchar_of_varcharOk {n : Nat} {s : String} (h : varcharOk n s = true) :
    varchar n s = s := by
  unfold varcharOk at h
  exact varchar_of_length_le (by simpa using (Bool.and_eq_true_iff.mp h).2)

theorem Uuid.mem_hexDigits {k n : Nat} {c : Char} (h : c ∈ Uuid.hexDigits k n) :
    ∃ a : Fin 16, c = Uuid.hexDigit a := by
  induction k generalizing n with
  | zero => cases h
  | succ k ih =>
      rcases List.mem_append.mp h with h | h
      · exact ih h
      · exact ⟨⟨n % 16, Nat.mod_lt _ (by decide)⟩, List.mem_singleton.mp h⟩

/-- The text of a UUID is made of digits and hyphens. -/
theorem Uuid.mem_toString {u : Uuid} {c : Char} (h : c ∈ u.toString.toList) :
    c = '-' ∨ ∃ a : Fin 16, c = Uuid.hexDigit a := by
  unfold Uuid.toString at h
  rw [String.toList_ofList] at h
  simp only [Uuid.hyphenated, List.append_assoc, List.cons_append, List.mem_append,
    List.mem_cons] at h
  rcases h with h | rfl | h | rfl | h | rfl | h | rfl | h
  · exact Or.inr (mem_hexDigits h)
  · exact Or.inl rfl
  · exact Or.inr (mem_hexDigits h)
  · exact Or.inl rfl
  · exact Or.inr (mem_hexDigits h)
  · exact Or.inl rfl
  · exact Or.inr (mem_hexDigits h)
  · exact Or.inl rfl
  · exact Or.inr (mem_hexDigits h)

private theorem hexDigit_ne_nul : ∀ a : Fin 16, (Uuid.hexDigit a).toNat ≠ 0 := by decide

/-- The text of a UUID fits every key column. -/
theorem Uuid.varcharOk_toString (u : Uuid) {n : Nat} (hn : 36 ≤ n) :
    varcharOk n u.toString = true := by
  have htext : textOk u.toString = true := by
    unfold textOk
    rw [List.all_eq_true]
    intro c hc
    rcases Uuid.mem_toString hc with rfl | ⟨a, rfl⟩
    · decide
    · simpa using hexDigit_ne_nul a
  have hlength : u.toString.length = 36 := by
    unfold Uuid.toString
    rw [String.length_ofList]
    simp [Uuid.hyphenated, Uuid.hexDigits_length]
  unfold varcharOk
  rw [htext, hlength]
  simpa using hn

/-- The characters with the Unicode property `White_Space`. -/
def isWhiteSpace (c : Char) : Bool :=
  let n := c.toNat
  (9 ≤ n && n ≤ 13) || n == 0x20 || n == 0x85 || n == 0xA0 || n == 0x1680 ||
    (0x2000 ≤ n && n ≤ 0x200A) || n == 0x2028 || n == 0x2029 || n == 0x202F || n == 0x205F ||
    n == 0x3000

/-- `str::trim`, as characters. -/
def trim (s : String) : List Char :=
  ((s.toList.dropWhile isWhiteSpace).reverse.dropWhile isWhiteSpace).reverse

/-- `str::contains`. -/
def containsText (hay needle : String) : Bool :=
  hay.toList.tails.any (fun t => needle.toList.isPrefixOf t)

/-- A text that lacks a character does not contain a text that has it. -/
theorem containsText_eq_false {hay needle : String} {c : Char} (hneedle : c ∈ needle.toList)
    (hhay : c ∉ hay.toList) : containsText hay needle = false := by
  unfold containsText
  rw [List.any_eq_false]
  intro t ht hprefix
  have hsub : needle.toList <+: t := List.isPrefixOf_iff_prefix.mp hprefix
  exact hhay (((List.mem_tails ..).mp ht).subset (hsub.subset hneedle))

/-- Instants, in microseconds since 1970. -/
abbrev Timestamp := Int

/-- What a `TIMESTAMPTZ` column can hold: from 4714-11-24 BC to the end of the year 294276. An
instant of `chrono` can be earlier. -/
def timestampOk (x : Timestamp) : Bool :=
  -210866803200000000 ≤ x && x < 9224318016000000000

/-- `chrono::Duration::seconds`. -/
def seconds (n : Int) : Int := n * 1000000

/-- A JSON document, by its serialized text. -/
abbrev Json := String

/-- The HTTP status codes the handlers answer with. -/
inductive StatusCode where
  | ok
  | created
  | badRequest
  | notFound
  | conflict
  | unprocessableEntity
  | internalServerError
  deriving DecidableEq, Repr

/-- The error half of a handler's result. -/
abbrev HttpError := StatusCode × String

/-- `internal_error`: the cause is logged, the caller gets a fixed text. -/
def internalError : HttpError := (.internalServerError, "Internal Server Error")

end Wurzburg
