import Wasmfxtime.Pcc.Ranges

/-! # The constants of move-wide chains

The `MovZ` and `MovN` arms derive the values the instructions write. The `MovK` arm ORs the
chunk into the input's constant, which is the value `MOVK` writes only when the input has
no bit in the slot that the chunk leaves clear.
-/

namespace Wasmfxtime.Pcc

variable {Fact : Type}

theorem MoveWideConst.bits_mul_lt (imm : MoveWideConst) {n : Nat} (h : imm.shift * 16 + 16 ≤ n) :
    imm.bits * 2 ^ (imm.shift * 16) < 2 ^ n := calc
  imm.bits * 2 ^ (imm.shift * 16) < 2 ^ 16 * 2 ^ (imm.shift * 16) :=
    Nat.mul_lt_mul_of_pos_right imm.bits_lt (Nat.two_pow_pos _)
  _ = 2 ^ (imm.shift * 16 + 16) := by rw [Nat.pow_add, Nat.mul_comm]
  _ ≤ 2 ^ n := Nat.pow_le_pow_right (by decide) h

theorem MoveWideConst.toNat_chunk (imm : MoveWideConst) :
    imm.chunk.toNat = imm.bits * 2 ^ (imm.shift * 16) := by
  have hbits : imm.bits < 2 ^ 64 := lt_trans imm.bits_lt (by decide)
  simp only [chunk, BitVec.toNat_shiftLeft, BitVec.toNat_ofNat, Nat.shiftLeft_eq,
    Nat.mod_eq_of_lt hbits]
  exact Nat.mod_eq_of_lt (imm.bits_mul_lt (by have := imm.shift_lt; omega))

theorem chunk_eq_movz {imm : MoveWideConst} {size : OperandSize} (h : imm.FitsIn size) :
    imm.chunk = movz imm size := by
  have hn : imm.shift * 16 + 16 ≤ size.bits := by
    cases size <;> simp only [MoveWideConst.FitsIn, OperandSize.bits] at h ⊢ <;> omega
  apply BitVec.eq_of_toNat_eq
  rw [movz, toNat_lowBits _ size.bits_le, imm.toNat_chunk, Nat.mod_eq_of_lt (imm.bits_mul_lt hn)]

theorem and_maxValue (x : BitVec 64) (size : OperandSize) :
    x &&& size.maxValue = lowBits size.bits x := by
  have h : size.maxValue.toNat = 2 ^ size.bits - 1 := by cases size <;> rfl
  apply BitVec.eq_of_toNat_eq
  rw [BitVec.toNat_and, h, Nat.and_pow_two_sub_one_eq_mod, toNat_lowBits x size.bits_le]

theorem not_chunk_and_maxValue (imm : MoveWideConst) (size : OperandSize) :
    ~~~imm.chunk &&& size.maxValue = movn imm size :=
  and_maxValue _ size

theorem and_not_or_eq_or_iff {w : Nat} (x s k : BitVec w) :
    (x &&& ~~~s) ||| k = x ||| k ↔ x &&& s &&& ~~~k = 0 := by
  constructor <;> intro h <;> apply BitVec.eq_of_getLsbD_eq <;> intro i <;>
    have := congrArg (fun y => BitVec.getLsbD y i) h <;>
    simp only [BitVec.getLsbD_or, BitVec.getLsbD_and, BitVec.getLsbD_not, i.isLt, decide_True,
      Bool.true_and, BitVec.ofNat_eq_ofNat, BitVec.getLsbD_zero] at this ⊢ <;>
    revert this <;> cases x.getLsbD i <;> cases s.getLsbD i <;> cases k.getLsbD i <;> decide

/-- In the 64-bit form, the `MovK` rule's OR is the value `MOVK` writes exactly when the
previous value has no bit in the slot that the chunk leaves clear. -/
theorem or_chunk_eq_movk_iff (c : BitVec 64) (imm : MoveWideConst) :
    c ||| imm.chunk = movk c imm .Size64 ↔ c &&& imm.slot &&& ~~~imm.chunk = 0 := by
  simp only [movk, OperandSize.bits, lowBits_64]
  rw [eq_comm, and_not_or_eq_or_iff]

/-! ## The arms of `check` -/

theorem checkConstant_of_none {ctx : FactContext Fact} {vcode : VCode Fact} {out : Reg}
    (h : vcode.vregFact out = none) (w : Nat) (c : BitVec 64) :
    checkConstant ctx vcode out w c = (.ok (), vcode.setVregFact out (ctx.constant w c)) := by
  simp only [checkConstant, h]

section Arms

variable (ctx : FactContext Fact) (vcode : VCode Fact) (rd : Reg) (imm : MoveWideConst)
  (size : OperandSize)

theorem check_movZ : check ctx vcode (.MovWide .MovZ rd imm size) =
    checkConstant ctx vcode rd 64 imm.chunk := rfl

theorem check_movN : check ctx vcode (.MovWide .MovN rd imm size) =
    checkConstant ctx vcode rd 64 (movn imm size) := by
  rw [← not_chunk_and_maxValue]
  rfl

theorem check_movK_of_asConst {rn : Reg} {input : Fact} {c : BitVec 64}
    (hin : getFactOrDefault ctx vcode rn = .ok input) (hc : ctx.asConst input 64 = some c) :
    check ctx vcode (.MovK rd rn imm size) = checkConstant ctx vcode rd 64 (c ||| imm.chunk) := by
  simp only [check, hin, hc]
  rfl

end Arms

theorem rangeContext_asConst_constant (size : Nat → Nat) (c : BitVec 64) :
    (rangeContext size).asConst ((rangeContext size).constant 64 c) 64 = some c := by
  simp only [rangeContext, RangeFact.asConst, and_self, if_true, Option.some.injEq]
  exact BitVec.eq_of_toNat_eq (by simp [Nat.mod_eq_of_lt c.isLt])

-- `movn x0, #0`, which sets `x0` to all ones.
def movnX0 : Inst := .MovWide .MovN ⟨0, .Int⟩ ⟨0, 0, by decide, by decide⟩ .Size64

-- `movk x1, x0, #0x1234`, which replaces the low chunk of `x0`.
def movkX1 : Inst := .MovK ⟨1, .Int⟩ ⟨0, .Int⟩ ⟨0x1234, 0, by decide, by decide⟩ .Size64

/-- The `MovK` arm installs the value `MOVK` writes exactly when the input has no bit in the
slot that the chunk leaves clear: on an input whose fact is the constant `c` and a
destination without a fact, over a context that reads its constants back, `check` gives the
destination the constant of the 64-bit `MOVK` result if and only if `c` has no bit set in
the slot where the chunk has a clear bit. -/
theorem check_movK_eq_movk_iff {ctx : FactContext Fact}
    (hconst : ∀ c, ctx.asConst (ctx.constant 64 c) 64 = some c) {vcode : VCode Fact}
    {rd rn : Reg} {imm : MoveWideConst} {input : Fact} {c : BitVec 64}
    (hin : getFactOrDefault ctx vcode rn = .ok input) (hc : ctx.asConst input 64 = some c)
    (hrd : vcode.vregFact rd = none) :
    check ctx vcode (.MovK rd rn imm .Size64) =
        (.ok (), vcode.setVregFact rd (ctx.constant 64 (movk c imm .Size64))) ↔
      c &&& imm.slot &&& ~~~imm.chunk = 0 := by
  rw [check_movK_of_asConst ctx vcode rd imm .Size64 hin hc, checkConstant_of_none hrd,
    ← or_chunk_eq_movk_iff]
  constructor
  · intro h
    have hfact := congrArg (fun res => res.2.vregFact rd) h
    simp only [VCode.vregFact_setVregFact_self, Option.some.injEq] at hfact
    simpa [hconst] using congrArg (ctx.asConst · 64) hfact
  · intro h
    rw [h]

-- After `movn x0, #0`, the input of `movk x1, x0, #0x1234` is the constant all ones, which has bits
-- in the slot that the chunk leaves clear.
theorem check_movK_eq_movk_iff_after_movn :
    let ctx := rangeContext fun _ => 0
    let vcode : VCode RangeFact := (check ctx ⟨fun _ => none, fun _ => .I64⟩ movnX0).2
    let imm : MoveWideConst := ⟨0x1234, 0, by decide, by decide⟩
    (∀ c, ctx.asConst (ctx.constant 64 c) 64 = some c) ∧
    getFactOrDefault ctx vcode ⟨0, .Int⟩ = .ok (ctx.constant 64 0xFFFFFFFFFFFFFFFF) ∧
    ctx.asConst (ctx.constant 64 0xFFFFFFFFFFFFFFFF) 64 = some 0xFFFFFFFFFFFFFFFF ∧
    vcode.vregFact ⟨1, .Int⟩ = none ∧
    (check ctx vcode (.MovK ⟨1, .Int⟩ ⟨0, .Int⟩ imm .Size64) =
        (.ok (), vcode.setVregFact ⟨1, .Int⟩
          (ctx.constant 64 (movk 0xFFFFFFFFFFFFFFFF imm .Size64))) ↔
      (0xFFFFFFFFFFFFFFFF : BitVec 64) &&& imm.slot &&& ~~~imm.chunk = 0) := by
  intro ctx vcode imm
  have hconst := rangeContext_asConst_constant fun _ => 0
  exact ⟨hconst, rfl, hconst _, rfl, check_movK_eq_movk_iff hconst rfl (hconst _) rfl⟩

/-- After `movnX0`, `movkX1` writes `0xFFFFFFFFFFFF1234`; `check` ORs the chunk into the
all-ones constant of `x0` and gives `x1` the constant all ones. -/
theorem check_movk_or_after_movn :
    (checkInsts (rangeContext fun _ => 0) ⟨fun _ => none, fun _ => .I64⟩ [movnX0, movkX1]).1 =
      .ok () ∧
    (checkInsts (rangeContext fun _ => 0) ⟨fun _ => none, fun _ => .I64⟩
      [movnX0, movkX1]).2.vregFact ⟨1, .Int⟩ =
      some ((rangeContext fun _ => 0).constant 64 0xFFFFFFFFFFFFFFFF) ∧
    movk (movn ⟨0, 0, by decide, by decide⟩ .Size64) ⟨0x1234, 0, by decide, by decide⟩ .Size64 =
      0xFFFFFFFFFFFF1234 :=
  ⟨rfl, rfl, by decide⟩

end Wasmfxtime.Pcc
