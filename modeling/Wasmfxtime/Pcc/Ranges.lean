import Wasmfxtime.Pcc.Contract

/-! # A fact context of ranges and memory regions

The facts that section 3 of the spec describes, with the operations it lists. The context
meets the soundness contract, so a run of `check` over it is a run the contract allows.
-/

namespace Wasmfxtime.Pcc

/-- Modelled from the spec: the facts of `ir::pcc`. `range w min max` says the low `w` bits
of a value lie in `[min, max]`, and is a constant when `min = max`; `mem region min max` is
a pointer into `region` at an offset in `[min, max]`. -/
inductive RangeFact
  | range (bitWidth min max : Nat)
  | mem (region minOffset maxOffset : Nat)
  deriving DecidableEq, Repr

namespace RangeFact

/-- The meaning of a fact when each region `r` starts at address `base r`. -/
def holds (base : Nat → Nat) : RangeFact → BitVec 64 → Prop
  | range w lo hi, v => lo ≤ v.toNat % 2 ^ w ∧ v.toNat % 2 ^ w ≤ hi
  | mem r lo hi, v => ∃ off, lo ≤ off ∧ off ≤ hi ∧ v = BitVec.ofNat 64 (base r + off)

def maxRange (w : Nat) : RangeFact := range w 0 (2 ^ w - 1)

/-- A range that every value satisfies. -/
def isFull : RangeFact → Bool
  | range w lo hi => lo = 0 && 2 ^ w - 1 ≤ hi
  | mem .. => false

def add (a b : RangeFact) (w : Nat) : Option RangeFact :=
  match a, b with
  | range w₁ l₁ h₁, range w₂ l₂ h₂ =>
    if w₁ = w ∧ w₂ = w ∧ w ≤ 64 ∧ h₁ + h₂ < 2 ^ w then some (range w (l₁ + l₂) (h₁ + h₂))
    else none
  | mem r lo hi, range w₂ l h | range w₂ l h, mem r lo hi =>
    if w = 64 ∧ w₂ = 64 then some (mem r (lo + l) (hi + h)) else none
  | _, _ => none

def scale (a : RangeFact) (w k : Nat) : Option RangeFact :=
  match a with
  | range w' l h => if w' = w ∧ w ≤ 64 ∧ h * k < 2 ^ w then some (range w (l * k) (h * k)) else none
  | mem .. => none

def shl (a : RangeFact) (w n : Nat) : Option RangeFact := scale a w (2 ^ n)

def offset (a : RangeFact) (w : Nat) (d : Int) : Option RangeFact :=
  match a with
  | range w' l h =>
    if w' = 64 ∧ w = 64 ∧ 0 ≤ l + d ∧ h + d < 2 ^ 64 then
      some (range 64 (l + d).toNat (h + d).toNat)
    else none
  | mem r lo hi => if w = 64 ∧ 0 ≤ lo + d then some (mem r (lo + d).toNat (hi + d).toNat) else none

def uextend (a : RangeFact) (m n : Nat) : Option RangeFact :=
  match a with
  | range w l h => if w = m ∧ m ≤ n ∧ n ≤ 64 then some (range n l h) else none
  | mem .. => none

/-- Sign extension is derived only for a range whose sign bit is clear. -/
def sextend (a : RangeFact) (m n : Nat) : Option RangeFact :=
  match a with
  | range w l h =>
    if w = m ∧ m ≤ n ∧ n ≤ 64 ∧ h < 2 ^ (m - 1) then some (range n l h) else none
  | mem .. => none

def asConst (a : RangeFact) (bits : Nat) : Option (BitVec 64) :=
  match a with
  | range w l h => if w = bits ∧ l = h then some (BitVec.ofNat 64 l) else none
  | mem .. => none

def subsumes (a b : RangeFact) : Bool :=
  b.isFull || match a, b with
    | range w l h, range w' l' h' => w = w' && l' ≤ l && h ≤ h'
    | mem r lo hi, mem r' lo' hi' => r = r' && lo' ≤ lo && hi ≤ hi'
    | _, _ => false

def subsumesFactOptionals : Option RangeFact → Option RangeFact → Bool
  | _, none => true
  | some a, some b => subsumes a b
  | none, some _ => false

def inferFromType : Ty → Option RangeFact
  | .I8 => some (maxRange 8) | .I16 => some (maxRange 16)
  | .I32 => some (maxRange 32) | .I64 => some (maxRange 64)
  | _ => none

/-- An access of `ty` through a pointer must end inside its region, of `size region` bytes. -/
def load (size : Nat → Nat) (addr : RangeFact) (ty : Ty) : PccResult (Option RangeFact) :=
  match addr with
  | mem r _ hi =>
    if hi + ty.bytes ≤ size r then .ok (some (maxRange ty.bits)) else .error .OutOfBounds
  | range .. => .error .OutOfBounds

def store (size : Nat → Nat) (addr : RangeFact) (ty : Ty) (_stored : Option RangeFact) :
    PccResult Unit :=
  match addr with
  | mem r _ hi => if hi + ty.bytes ≤ size r then .ok () else .error .OutOfBounds
  | range .. => .error .OutOfBounds

/-- A load succeeds only through a region pointer whose last offset leaves room. -/
theorem load_ok {size : Nat → Nat} {a : RangeFact} {t : Ty} {x : Option RangeFact}
    (h : load size a t = .ok x) : ∃ r lo hi, a = mem r lo hi ∧ hi + t.bytes ≤ size r := by
  cases a with
  | range => cases h
  | mem r lo hi => exact ⟨r, lo, hi, rfl, by by_contra hb; simp [load, hb] at h⟩

theorem store_ok {size : Nat → Nat} {a : RangeFact} {t : Ty} {s : Option RangeFact}
    (h : store size a t s = .ok ()) : ∃ r lo hi, a = mem r lo hi ∧ hi + t.bytes ≤ size r := by
  cases a with
  | range => cases h
  | mem r lo hi => exact ⟨r, lo, hi, rfl, by by_contra hb; simp [store, hb] at h⟩

/-! ## Each operation is sound -/

section Sound

variable (base : Nat → Nat) {x y : BitVec 64}

theorem residue_lowBits {w : Nat} (hw : w ≤ 64) (v : BitVec 64) :
    (lowBits w v).toNat % 2 ^ w = v.toNat % 2 ^ w := by
  rw [toNat_lowBits v hw, Nat.mod_mod]

theorem mod_two_pow_64_mod {w : Nat} (hw : w ≤ 64) (n : Nat) : n % 2 ^ 64 % 2 ^ w = n % 2 ^ w :=
  Nat.mod_mod_of_dvd n (Nat.pow_dvd_pow 2 hw)

theorem holds_of_isFull {b : RangeFact} (hb : b.isFull = true) (v : BitVec 64) :
    holds base b v := by
  cases b with
  | mem => cases hb
  | range w lo hi =>
    simp only [isFull, Bool.and_eq_true, decide_eq_true_eq] at hb
    have := Nat.mod_lt v.toNat (Nat.two_pow_pos w)
    exact ⟨by omega, by omega⟩

theorem holds_mem_add {r lo hi l h : Nat} (hx : holds base (mem r lo hi) x)
    (hl : l ≤ y.toNat) (hh : y.toNat ≤ h) : holds base (mem r (lo + l) (hi + h)) (x + y) := by
  obtain ⟨off, hlo, hhi, rfl⟩ := hx
  refine ⟨off + y.toNat, by omega, by omega, ?_⟩
  apply BitVec.eq_of_toNat_eq
  simp only [BitVec.toNat_add, BitVec.toNat_ofNat, Nat.mod_add_mod, Nat.add_assoc]

theorem add_sound {a b c : RangeFact} {w : Nat} (h : add a b w = some c)
    (ha : holds base a x) (hb : holds base b y) : holds base c (lowBits w (x + y)) := by
  cases a <;> cases b <;>
    simp only [add, Option.ite_none_right_eq_some, Option.some.injEq, reduceCtorEq] at h
  case range.range w₁ l₁ h₁ w₂ l₂ h₂ =>
    obtain ⟨⟨e₁, e₂, hw, hlt⟩, rfl⟩ := h
    subst w₁ w₂
    simp only [holds] at ha hb ⊢
    have hsum : (lowBits w (x + y)).toNat % 2 ^ w = x.toNat % 2 ^ w + y.toNat % 2 ^ w := by
      rw [residue_lowBits hw, BitVec.toNat_add, mod_two_pow_64_mod hw, Nat.add_mod]
      exact Nat.mod_eq_of_lt (by omega)
    omega
  case range.mem =>
    obtain ⟨⟨rfl, rfl⟩, rfl⟩ := h
    simp only [holds, Nat.mod_eq_of_lt x.isLt] at ha
    rw [lowBits_64, BitVec.add_comm]
    exact holds_mem_add base hb ha.1 ha.2
  case mem.range =>
    obtain ⟨⟨rfl, rfl⟩, rfl⟩ := h
    simp only [holds, Nat.mod_eq_of_lt y.isLt] at hb
    rw [lowBits_64]
    exact holds_mem_add base ha hb.1 hb.2

theorem scale_sound {a c : RangeFact} {w k : Nat} (h : scale a w k = some c)
    (ha : holds base a x) : holds base c (lowBits w (x * BitVec.ofNat 64 k)) := by
  cases a <;> simp only [scale, Option.ite_none_right_eq_some, Option.some.injEq, reduceCtorEq] at h
  rename_i w' l hi
  obtain ⟨⟨e, hw, hlt⟩, rfl⟩ := h
  subst w'
  simp only [holds] at ha ⊢
  have hmul : (lowBits w (x * BitVec.ofNat 64 k)).toNat % 2 ^ w = x.toNat % 2 ^ w * k := by
    rw [residue_lowBits hw, BitVec.toNat_mul, BitVec.toNat_ofNat, mod_two_pow_64_mod hw,
      Nat.mul_mod, mod_two_pow_64_mod hw, Nat.mul_mod_mod]
    exact Nat.mod_eq_of_lt (lt_of_le_of_lt (Nat.mul_le_mul_right k ha.2) hlt)
  rw [hmul]
  exact ⟨Nat.mul_le_mul_right k ha.1, Nat.mul_le_mul_right k ha.2⟩

theorem shiftLeft_eq_mul_ofNat (x : BitVec 64) (n : Nat) :
    x <<< n = x * BitVec.ofNat 64 (2 ^ n) := by
  apply BitVec.eq_of_toNat_eq
  simp only [BitVec.toNat_shiftLeft, BitVec.toNat_mul, BitVec.toNat_ofNat, Nat.shiftLeft_eq,
    Nat.mul_mod_mod]

theorem offset_sound {a c : RangeFact} {w : Nat} {d : Int} (h : offset a w d = some c)
    (ha : holds base a x) : holds base c (lowBits w (x + BitVec.ofInt 64 d)) := by
  cases a <;> simp only [offset, Option.ite_none_right_eq_some, Option.some.injEq] at h
  case range =>
    obtain ⟨⟨rfl, rfl, hl, hh⟩, rfl⟩ := h
    simp only [holds, lowBits_64, BitVec.toNat_add, BitVec.toNat_ofInt] at ha ⊢
    have := x.isLt
    omega
  case mem r lo hi =>
    obtain ⟨⟨rfl, hl⟩, rfl⟩ := h
    obtain ⟨off, hlo, hhi, rfl⟩ := ha
    refine ⟨(off + d).toNat, by omega, by omega, ?_⟩
    apply BitVec.eq_of_toNat_eq
    simp only [lowBits_64, BitVec.toNat_add, BitVec.toNat_ofNat, BitVec.toNat_ofInt]
    omega

theorem uextend_sound {a c : RangeFact} {m n : Nat} (h : uextend a m n = some c)
    (ha : holds base a x) : holds base c (lowBits m x) := by
  cases a <;> simp only [uextend, Option.ite_none_right_eq_some, Option.some.injEq,
    reduceCtorEq] at h
  obtain ⟨⟨rfl, hmn, hn⟩, rfl⟩ := h
  have hlt := lt_of_lt_of_le (Nat.mod_lt x.toNat (Nat.two_pow_pos _))
    (Nat.pow_le_pow_right (by decide) hmn)
  simp only [holds, toNat_lowBits x (hmn.trans hn), Nat.mod_eq_of_lt hlt] at ha ⊢
  exact ha

theorem toNat_sext_of_lt {m n : Nat} (hmn : m ≤ n) (hn : n ≤ 64)
    (hx : x.toNat % 2 ^ m < 2 ^ (m - 1)) : (sext m n x).toNat = x.toNat % 2 ^ m := by
  have hmsb : (x.setWidth m).msb = false := by
    simp only [BitVec.msb_eq_decide, BitVec.toNat_setWidth, decide_eq_false_iff_not, Nat.not_le]
    exact hx
  have hlt : x.toNat % 2 ^ m < 2 ^ n :=
    lt_of_lt_of_le (Nat.mod_lt _ (Nat.two_pow_pos m)) (Nat.pow_le_pow_right (by decide) hmn)
  have hlt64 : x.toNat % 2 ^ m < 2 ^ 64 :=
    lt_of_lt_of_le hlt (Nat.pow_le_pow_right (by decide) hn)
  simp only [sext, BitVec.signExtend_eq_not_setWidth_not_of_msb_false hmsb,
    BitVec.toNat_setWidth, Nat.mod_eq_of_lt hlt, Nat.mod_eq_of_lt hlt64]

theorem sextend_sound {a c : RangeFact} {m n : Nat} (h : sextend a m n = some c)
    (ha : holds base a x) : holds base c (sext m n x) := by
  cases a <;> simp only [sextend, Option.ite_none_right_eq_some, Option.some.injEq,
    reduceCtorEq] at h
  obtain ⟨⟨rfl, hmn, hn, hh⟩, rfl⟩ := h
  simp only [holds] at ha ⊢
  have hlt := lt_of_lt_of_le (Nat.mod_lt x.toNat (Nat.two_pow_pos _))
    (Nat.pow_le_pow_right (by decide) hmn)
  rw [toNat_sext_of_lt hmn hn (by omega), Nat.mod_eq_of_lt hlt]
  exact ha

theorem subsumes_sound {a b : RangeFact} {v : BitVec 64} (h : subsumes a b = true)
    (ha : holds base a v) : holds base b v := by
  simp only [subsumes, Bool.or_eq_true] at h
  rcases h with h | h
  · exact holds_of_isFull base h v
  · cases a <;> cases b <;> simp only [Bool.and_eq_true, decide_eq_true_eq, reduceCtorEq] at h
    case range.range =>
      obtain ⟨⟨rfl, _⟩, _⟩ := h
      simp only [holds] at ha ⊢
      omega
    case mem.mem =>
      obtain ⟨⟨rfl, _⟩, _⟩ := h
      obtain ⟨off, _, _, rfl⟩ := ha
      exact ⟨off, by omega, by omega, rfl⟩

theorem asConst_sound {a : RangeFact} {c v : BitVec 64} (h : asConst a 64 = some c)
    (ha : holds base a v) : v = c := by
  cases a <;> simp only [asConst, Option.ite_none_right_eq_some, Option.some.injEq,
    reduceCtorEq] at h
  obtain ⟨⟨rfl, rfl⟩, rfl⟩ := h
  simp only [holds, Nat.mod_eq_of_lt v.isLt] at ha
  apply BitVec.eq_of_toNat_eq
  simp only [BitVec.toNat_ofNat]
  omega

theorem isFull_maxRange (w : Nat) : (maxRange w).isFull = true := by
  simp [maxRange, isFull]

end Sound

end RangeFact

open RangeFact in
/-- Modelled from the spec: the fact context over `RangeFact`, for regions of `size r`
bytes. -/
def rangeContext (size : Nat → Nat) : FactContext RangeFact where
  constant w c := range w (c.toNat % 2 ^ w) (c.toNat % 2 ^ w)
  maxRangeForWidth := maxRange
  inferFromType := inferFromType
  asConst := asConst
  propagates f := !f.isFull
  isMem
    | mem .. => true
    | range .. => false
  add := add
  shl := shl
  scale := scale
  offset := offset
  uextend := uextend
  sextend := sextend
  load := load size
  store := store size
  subsumes := subsumes
  subsumesFactOptionals := subsumesFactOptionals

open RangeFact in
/-- The context of ranges and regions meets the contract, for every layout of the regions. -/
theorem rangeContext_sound (size base : Nat → Nat) :
    (rangeContext size).Sound (holds base) where
  constant _ _ := ⟨le_rfl, le_rfl⟩
  maxRangeForWidth w v _ := holds_of_isFull base (isFull_maxRange w) v
  inferFromType v h := by
    cases ‹Ty› <;> simp only [rangeContext, inferFromType, Option.some.injEq, reduceCtorEq] at h <;>
      exact h ▸ holds_of_isFull base (isFull_maxRange _) v
  asConst := asConst_sound base
  add := add_sound base
  shl h ha := by rw [shiftLeft_eq_mul_ofNat]; exact scale_sound base h ha
  scale := scale_sound base
  offset := offset_sound base
  uextend := uextend_sound base
  sextend := sextend_sound base
  subsumes := subsumes_sound base
  subsumesFactOptionals {a _ _} h := by
    cases a with
    | none => cases h
    | some a => exact ⟨a, rfl, subsumes_sound base h⟩

end Wasmfxtime.Pcc
