import GenericNetlink.Proofs.Alignment
import GenericNetlink.Proofs.Items
import Mathlib.Order.Bounds.Basic

/-!
Rounding up, and the places at which the records of a stream begin.

`alignUp` gives the least multiple of the boundary that is not below a number (`isLeast_alignUp`),
and its laws come from that (`alignUp_least_multiple`). A reader goes on with what is left of its
buffer and rounds the length of a record only. Since rounding up commutes with adding a multiple of
the boundary, it stands where rounding up the place in the whole buffer would put it
(`Format.behind_drop`), and so all through a stream (`Format.left_eq_drop`).
-/

namespace GenericNetlink

/-! ### The laws of rounding up -/

section Laws

variable {n m boundary : UInt64} {k : Nat}

/-- As long as the addition does not overflow, `alignUp` gives the least multiple of the boundary
that is not below the number. -/
theorem isLeast_alignUp (hb : boundary.toNat = 2 ^ k)
    (h : n.toNat + boundary.toNat - 1 < 2 ^ 64) :
    IsLeast {m | boundary.toNat ∣ m ∧ n.toNat ≤ m} (alignUp n boundary).toNat := by
  have hpos : 0 < 2 ^ k := Nat.two_pow_pos k
  rw [toNat_alignUp n boundary k hb h, hb]
  refine ⟨⟨Nat.dvd_mul_left .., ?_⟩, ?_⟩
  · have hover : n.toNat + (2 ^ k - 1) < (n.toNat + (2 ^ k - 1)) / 2 ^ k * 2 ^ k + 2 ^ k :=
      Nat.lt_div_mul_add hpos
    omega
  · rintro _ ⟨⟨q, rfl⟩, hle⟩
    have hquotient : (n.toNat + (2 ^ k - 1)) / 2 ^ k < q + 1 := by
      rw [Nat.div_lt_iff_lt_mul hpos, Nat.add_mul, Nat.mul_comm q]
      omega
    rw [Nat.mul_comm (2 ^ k)]
    exact Nat.mul_le_mul_right _ (Nat.le_of_lt_succ hquotient)

/-- Rounding up adds less than the boundary. -/
theorem alignUp_lt (hb : boundary.toNat = 2 ^ k) (h : n.toNat + boundary.toNat - 1 < 2 ^ 64) :
    (alignUp n boundary).toNat < n.toNat + boundary.toNat := by
  have hpos : 0 < 2 ^ k := Nat.two_pow_pos k
  have hfloor := Nat.div_mul_le_self (n.toNat + (2 ^ k - 1)) (2 ^ k)
  rw [toNat_alignUp n boundary k hb h, hb]
  omega

/-- What was rounded up can be rounded up again without overflow. -/
theorem alignUp_add_lt (hb : boundary.toNat = 2 ^ k)
    (h : n.toNat + boundary.toNat - 1 < 2 ^ 64) :
    (alignUp n boundary).toNat + boundary.toNat - 1 < 2 ^ 64 := by
  have hlt : (alignUp n boundary).toNat < 2 ^ 64 := (alignUp n boundary).toNat_lt
  have hk : k ≤ 64 := by
    have hbound : 2 ^ k < 2 ^ 64 := hb ▸ boundary.toNat_lt
    exact Nat.le_of_lt ((Nat.pow_lt_pow_iff_right (by decide)).1 hbound)
  -- the next multiple of the boundary is not beyond the words, since they end at a multiple of it
  have hrest : boundary.toNat ∣ 2 ^ 64 - (alignUp n boundary).toNat :=
    Nat.dvd_sub (hb ▸ Nat.pow_dvd_pow 2 hk) (isLeast_alignUp hb h).1.1
  have hle := Nat.le_of_dvd (by omega) hrest
  omega

theorem alignUp_alignUp (hb : boundary.toNat = 2 ^ k)
    (h : n.toNat + boundary.toNat - 1 < 2 ^ 64) :
    alignUp (alignUp n boundary) boundary = alignUp n boundary := by
  have hleast := isLeast_alignUp hb (alignUp_add_lt hb h)
  have hself : IsLeast {m | boundary.toNat ∣ m ∧ (alignUp n boundary).toNat ≤ m}
      (alignUp n boundary).toNat :=
    ⟨⟨(isLeast_alignUp hb h).1.1, Nat.le_refl _⟩, fun m hm => hm.2⟩
  exact UInt64.toNat_inj.1 (hleast.unique hself)

theorem alignUp_mono (hb : boundary.toNat = 2 ^ k) (h : n.toNat + boundary.toNat - 1 < 2 ^ 64)
    (hle : m ≤ n) : alignUp m boundary ≤ alignUp n boundary := by
  rw [UInt64.le_iff_toNat_le] at hle ⊢
  have hm : m.toNat + boundary.toNat - 1 < 2 ^ 64 := by omega
  obtain ⟨hdvd, hn⟩ := (isLeast_alignUp hb h).1
  exact (isLeast_alignUp hb hm).2 ⟨hdvd, Nat.le_trans hle hn⟩

/-- A multiple of the boundary may be added before rounding up or after it. -/
theorem alignUp_add (hb : boundary.toNat = 2 ^ k) (hdvd : boundary.toNat ∣ m.toNat)
    (h : m.toNat + n.toNat + boundary.toNat - 1 < 2 ^ 64) :
    (alignUp (m + n) boundary).toNat = m.toNat + (alignUp n boundary).toNat := by
  have hpos : 0 < 2 ^ k := Nat.two_pow_pos k
  have hsum : (m + n).toNat = m.toNat + n.toNat := by
    rw [UInt64.toNat_add, Nat.mod_eq_of_lt (by omega)]
  obtain ⟨⟨hmultiple, hle⟩, hlower⟩ :=
    isLeast_alignUp hb (show n.toNat + boundary.toNat - 1 < 2 ^ 64 by omega)
  have hleast := isLeast_alignUp hb (show (m + n).toNat + boundary.toNat - 1 < 2 ^ 64 by omega)
  refine hleast.unique ⟨⟨Nat.dvd_add hdvd hmultiple, by omega⟩, ?_⟩
  rintro x ⟨hx, hxle⟩
  have hrest := hlower ⟨Nat.dvd_sub hx hdvd, show n.toNat ≤ x - m.toNat by omega⟩
  omega

end Laws

/-! ### Where records begin -/

namespace Format

variable {α : Type} (f : Format α)

/-- A reader that stands at a word boundary goes on where rounding up the end of the record in the
whole buffer puts it. -/
theorem behind_drop {data : Bytes} {start size : UInt64} (hstart : wordSize ∣ start.toNat)
    (hsize : f.declared ((data.drop start.toNat).take f.headerSize) = size.toNat)
    (h : start.toNat + size.toNat + 3 < 2 ^ 64) :
    f.behind (data.drop start.toNat) = data.drop (alignUp (start + size) 4).toNat := by
  have hfour : (4 : UInt64).toNat = 2 ^ 2 := rfl
  rw [behind, hsize, List.drop_drop, alignUp_add hfour hstart h,
    toNat_alignUp_four size (by omega)]

/-- The length that the header at a place of a buffer declares. -/
def sizeAt (data : Bytes) (start : UInt64) : UInt64 :=
  UInt64.ofNat (f.declared ((data.drop start.toNat).take f.headerSize))

/-- The place in a buffer where a record begins, by the number of those in front of it. -/
def place (data : Bytes) : Nat → UInt64
  | 0 => 0
  | i + 1 => alignUp (place data i + f.sizeAt data (place data i)) 4

variable {f} {data : Bytes}

theorem rest_of_decode {a : α} (h : f.decode data = .ok a) : f.rest data = f.behind data := by
  have hle := f.decode_eq_ok_iff.1 h
  have hnext : f.next? data = some (.ok a, f.behind data) := by
    rw [next?, if_neg (by simp [f.isEmpty_eq_false_iff.2 (Nat.le_trans hle.1 hle.2.1)]), h]
  rw [rest, hnext]

/-- As long as there are records, a reader stands at one and goes on with what is behind it. -/
theorem exists_decode_left {i : Nat} (hi : i < (f.records data).length) :
    ∃ a, f.decode (f.left i data) = .ok a ∧ f.left (i + 1) data = f.behind (f.left i data) := by
  induction i generalizing data with
  | zero =>
    cases hd : f.decode data with
    | error e => simp [records_of_decode_error hd] at hi
    | ok a => exact ⟨a, hd, rest_of_decode hd⟩
  | succ i ih =>
    cases hd : f.decode data with
    | error e => simp [records_of_decode_error hd] at hi
    | ok a =>
      rw [records_of_decode hd, List.length_cons, Nat.add_lt_add_iff_right] at hi
      simp only [left, rest_of_decode hd]
      exact ih hi

/-- A record that stands in a buffer ends in it, so its end can be rounded up. -/
theorem add_sizeAt_lt (hdata : data.length + 3 < 2 ^ 64) {start : UInt64} {a : α}
    (h : f.decode (data.drop start.toNat) = .ok a) :
    (f.sizeAt data start).toNat = f.declared ((data.drop start.toNat).take f.headerSize) ∧
      start.toNat + (f.sizeAt data start).toNat + 3 < 2 ^ 64 := by
  obtain ⟨hlow, hhigh, -⟩ := f.decode_eq_ok_iff.1 h
  have hpos := f.headerSize_pos
  rw [List.length_drop] at hhigh
  have hsize : (f.sizeAt data start).toNat =
      f.declared ((data.drop start.toNat).take f.headerSize) :=
    UInt64.toNat_ofNat_of_lt' (by simp only [UInt64.size]; omega)
  exact ⟨hsize, by omega⟩

/-- A reader that has given records stands at the place where the next one would begin, which is a
word boundary. -/
theorem left_eq_drop (hdata : data.length + 3 < 2 ^ 64) {i : Nat}
    (hi : i ≤ (f.records data).length) :
    f.left i data = data.drop (f.place data i).toNat ∧ wordSize ∣ (f.place data i).toNat := by
  induction i with
  | zero => exact ⟨rfl, Nat.dvd_zero _⟩
  | succ i ih =>
    obtain ⟨hleft, hplace⟩ := ih (Nat.le_of_succ_le hi)
    obtain ⟨a, hdecode, hbehind⟩ := exists_decode_left hi
    rw [hleft] at hdecode hbehind
    obtain ⟨hsize, hroom⟩ := add_sizeAt_lt hdata hdecode
    have hfour : (4 : UInt64).toNat = 2 ^ 2 := rfl
    rw [hbehind, f.behind_drop hplace hsize.symm hroom, place]
    refine ⟨rfl, ?_⟩
    rw [alignUp_add hfour hplace hroom, toNat_alignUp_four _ (by omega)]
    exact Nat.dvd_add hplace (Nat.dvd_of_mod_eq_zero (wordAlign_mod _))

end Format

/-! ### The result -/

/-- Rounding up gives the least multiple of a power of two that is not below the number, as long as
the addition does not overflow. So it adds less than the boundary, changes nothing the second time,
keeps the order, and commutes with adding a multiple of the boundary. This lets a reader of records
that stands at a word boundary go on where rounding up the end of the record in the whole buffer
puts it. -/
theorem alignUp_least_multiple (n boundary : UInt64) (k : Nat) (hb : boundary.toNat = 2 ^ k)
    (h : n.toNat + boundary.toNat - 1 < 2 ^ 64) :
    IsLeast {m | boundary.toNat ∣ m ∧ n.toNat ≤ m} (alignUp n boundary).toNat ∧
    (alignUp n boundary).toNat < n.toNat + boundary.toNat ∧
    alignUp (alignUp n boundary) boundary = alignUp n boundary ∧
    (∀ m, m ≤ n → alignUp m boundary ≤ alignUp n boundary) ∧
    ∀ m : UInt64, boundary.toNat ∣ m.toNat → m.toNat + n.toNat + boundary.toNat - 1 < 2 ^ 64 →
      (alignUp (m + n) boundary).toNat = m.toNat + (alignUp n boundary).toNat ∧
      ∀ (α : Type) (f : Format α) (data : Bytes), boundary.toNat = wordSize →
        f.declared ((data.drop m.toNat).take f.headerSize) = n.toNat →
        f.behind (data.drop m.toNat) = data.drop (alignUp (m + n) boundary).toNat := by
  refine ⟨isLeast_alignUp hb h, alignUp_lt hb h, alignUp_alignUp hb h,
    fun m hle => alignUp_mono hb h hle, fun m hdvd hm => ⟨alignUp_add hb hdvd hm, ?_⟩⟩
  intro α f data hword hdeclared
  obtain rfl : boundary = 4 := UInt64.toNat_inj.1 hword
  exact f.behind_drop hdvd hdeclared hm

/-- The last multiple of four among the words: adding the boundary to it overflows, and it is given
back all the same. -/
theorem alignUp_least_multiple_of_last_word :
    let n : UInt64 := 18446744073709551612
    (4 : UInt64).toNat = 2 ^ 2 ∧ n.toNat + (4 : UInt64).toNat - 1 < 2 ^ 64 ∧ n + 4 = 0 ∧
      IsLeast {m | 4 ∣ m ∧ 18446744073709551612 ≤ m} 18446744073709551612 ∧
      alignUp n 4 = n ∧ alignUp 18446744073709551609 4 ≤ n := by
  intro n
  have hb : (4 : UInt64).toNat = 2 ^ 2 := rfl
  have h : n.toNat + (4 : UInt64).toNat - 1 < 2 ^ 64 := by decide
  obtain ⟨hleast, -, -, hmono, -⟩ := alignUp_least_multiple n 4 2 hb h
  have hn : alignUp n 4 = n := by decide
  have hbelow := hmono 18446744073709551609 (by decide)
  rw [hn] at hleast hbelow
  exact ⟨hb, h, by decide, hleast, hn, hbelow⟩

end GenericNetlink
