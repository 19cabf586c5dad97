import Wasmfxtime.Pcc.Frame
import Wasmfxtime.Pcc.Constants

/-! # Constants built by `movz` and `movk`

Code builds a 64-bit constant with a `movz` and then a `movk` for each further chunk, each
reading the register the one before it wrote. When the chunks go to distinct slots, every
`movk` writes the OR of its input and its chunk, so at each step the `MovK` arm of `check`
derives exactly the value the instruction writes.
-/

namespace Wasmfxtime.Pcc

variable {Fact : Type}

/-! ## Slots -/

theorem div_sixteen_of_getLsbD_shiftLeft {x n i : Nat} (hx : x < 2 ^ 16)
    (h : (BitVec.ofNat 64 x <<< (n * 16)).getLsbD i = true) : i / 16 = n := by
  simp only [BitVec.getLsbD_shiftLeft, BitVec.getLsbD_ofNat, Bool.and_eq_true,
    decide_eq_true_eq, Bool.not_eq_true', decide_eq_false_iff_not, not_lt] at h
  obtain ⟨⟨-, hn⟩, -, hb⟩ := h
  have : i - n * 16 < 16 := by
    by_contra hge
    rw [Nat.testBit_lt_two_pow
      (lt_of_lt_of_le hx (Nat.pow_le_pow_right (by decide) (by omega)))] at hb
    cases hb
  omega

theorem MoveWideConst.div_sixteen_of_getLsbD_chunk {imm : MoveWideConst} {i : Nat}
    (h : imm.chunk.getLsbD i = true) : i / 16 = imm.shift :=
  div_sixteen_of_getLsbD_shiftLeft imm.bits_lt h

theorem MoveWideConst.div_sixteen_of_getLsbD_slot {imm : MoveWideConst} {i : Nat}
    (h : imm.slot.getLsbD i = true) : i / 16 = imm.shift :=
  div_sixteen_of_getLsbD_shiftLeft (by decide) h

theorem movk_eq_or {c : BitVec 64} {imm : MoveWideConst}
    (h : ∀ i, c.getLsbD i = true → i / 16 ≠ imm.shift) : movk c imm .Size64 = c ||| imm.chunk := by
  apply BitVec.eq_of_getLsbD_eq
  intro i
  simp only [movk, OperandSize.bits, lowBits_64, BitVec.getLsbD_or, BitVec.getLsbD_and,
    BitVec.getLsbD_not, i.isLt, decide_True, Bool.true_and]
  cases hc : c.getLsbD i
  · rfl
  · cases hs : imm.slot.getLsbD i
    · rfl
    · exact absurd (imm.div_sixteen_of_getLsbD_slot hs) (h i hc)

theorem div_sixteen_not_mem_of_getLsbD_or {c : BitVec 64} {imm : MoveWideConst}
    {slots : List Nat} (hc : ∀ i, c.getLsbD i = true → i / 16 ∉ slots) (himm : imm.shift ∉ slots)
    (i : Nat) (hi : (c ||| imm.chunk).getLsbD i = true) : i / 16 ∉ slots := by
  rcases Bool.or_eq_true_iff.mp ((BitVec.getLsbD_or ..).symm.trans hi) with hi | hi
  · exact hc i hi
  · rwa [imm.div_sixteen_of_getLsbD_chunk hi]

/-! ## The chain -/

/-- `movk rd, rn, #imm` in the 64-bit form for each `(rd, imm)`, each reading the register
the one before it wrote. -/
def movkChain (rn : Reg) : List (Reg × MoveWideConst) → List Inst
  | [] => []
  | (rd, imm) :: ks => .MovK rd rn imm .Size64 :: movkChain rd ks

theorem not_mem_defs_of_mem_movkChain {r : Reg} :
    ∀ {rn : Reg} {ks : List (Reg × MoveWideConst)}, r ∉ ks.map Prod.fst →
      ∀ inst ∈ movkChain rn ks, r ∉ inst.defs
  | _, [], _, _, h => nomatch h
  | _, (rd, _) :: _, hr, inst, hmem => by
    simp only [List.map_cons, List.mem_cons, not_or] at hr
    rcases List.mem_cons.mp hmem with rfl | hmem
    · simpa [Inst.defs] using hr.1
    · exact not_mem_defs_of_mem_movkChain hr.2 inst hmem

section Check

variable {ctx : FactContext Fact} {vcode : VCode Fact}

theorem check_movK_const (hconst : ∀ c, ctx.asConst (ctx.constant 64 c) 64 = some c)
    {rd rn : Reg} {imm : MoveWideConst} {c : BitVec 64}
    (hrn : vcode.vregFact rn = some (ctx.constant 64 c)) (hrd : vcode.vregFact rd = none) :
    check ctx vcode (.MovK rd rn imm .Size64) =
      (.ok (), vcode.setVregFact rd (ctx.constant 64 (c ||| imm.chunk))) := by
  have hin : getFactOrDefault ctx vcode rn = .ok (ctx.constant 64 c) := by
    simp only [getFactOrDefault, hrn, Option.some_orElse]
  rw [check_movK_of_asConst ctx vcode rd imm .Size64 hin (hconst c), checkConstant_of_none hrd]

/-- The run lemma of a `movk` chain from a register that holds the constant its fact names,
whose bits lie outside the chain's slots. -/
theorem movkChain_exact (hconst : ∀ c, ctx.asConst (ctx.constant 64 c) 64 = some c)
    {ks : List (Reg × MoveWideConst)} {rn : Reg} {c : BitVec 64} {regs regs' : Regs}
    (hregs : (rn :: ks.map Prod.fst).Nodup) (hslots : (ks.map fun k => k.2.shift).Nodup)
    (hbits : ∀ i, c.getLsbD i = true → i / 16 ∉ ks.map fun k => k.2.shift)
    (hrn : vcode.vregFact rn = some (ctx.constant 64 c))
    (hfresh : ∀ r ∈ ks.map Prod.fst, vcode.vregFact r = none) (hval : regs rn = c)
    (hrun : Run regs (movkChain rn ks) regs') :
    (checkInsts ctx vcode (movkChain rn ks)).1 = .ok () ∧
      ∀ r ∈ rn :: ks.map Prod.fst,
        (checkInsts ctx vcode (movkChain rn ks)).2.vregFact r = some (ctx.constant 64 (regs' r)) := by
  induction ks generalizing rn c vcode regs with
  | nil =>
    cases hrun
    refine ⟨rfl, fun r hr => ?_⟩
    rw [List.mem_singleton.mp hr, hval]
    exact hrn
  | cons k ks ih =>
    obtain ⟨rd, imm⟩ := k
    simp only [List.map_cons, List.nodup_cons, List.mem_cons, not_or] at hregs hslots hbits
    obtain ⟨⟨hrnd, hrnks⟩, hrdks, hnodup⟩ := hregs
    have hrd := hfresh rd (List.mem_cons_self _ _)
    obtain _ | ⟨hstep, hrest⟩ := hrun
    obtain ⟨hd, ⟨-, hv⟩⟩ | ⟨_, ⟨⟩⟩ | ⟨⟨⟩⟩ := hstep
    cases hd
    have hor : movk (regs rn) imm .Size64 = c ||| imm.chunk := by
      rw [hval]
      exact movk_eq_or fun i hi => (hbits i hi).1
    have hfresh' : ∀ r ∈ ks.map Prod.fst,
        (vcode.setVregFact rd (ctx.constant 64 (c ||| imm.chunk))).vregFact r = none :=
      fun r hr => by
        rw [vcode.vregFact_setVregFact_of_ne _ fun h : r = rd => hrdks (h ▸ hr)]
        exact hfresh r (List.mem_cons_of_mem _ hr)
    obtain ⟨hok, hfacts⟩ := ih (List.nodup_cons.mpr ⟨hrdks, hnodup⟩) hslots.2
      (div_sixteen_not_mem_of_getLsbD_or (fun i hi => (hbits i hi).2) hslots.1)
      (vcode.vregFact_setVregFact_self _ _) hfresh' (by rw [Function.update_same, hv, hor]) hrest
    simp only [movkChain, checkInsts, check_movK_const hconst hrn hrd]
    refine ⟨hok, fun r hr => ?_⟩
    rcases List.mem_cons.mp hr with rfl | hr
    · rw [checkInsts_keeps_fact ctx _ _ (by rw [vcode.vregFact_setVregFact_of_ne _ hrnd]; exact hrn),
        hrest.frame (not_mem_defs_of_mem_movkChain hrnks), Function.update_noteq hrnd, hval]
    · exact hfacts r hr

end Check

/-- Constants built without `movn`: for a `movz`, of either size, followed by 64-bit `movk`s
that each read the register the one before wrote, with chunks in distinct slots and destinations that carry no
fact, `check` accepts the chain, and after every run of it each destination's fact is the
constant the run left in it, over a fact context that reads its constants back. -/
theorem checkInsts_movz_movkChain_exact {ctx : FactContext Fact}
    (hconst : ∀ c, ctx.asConst (ctx.constant 64 c) 64 = some c) {vcode : VCode Fact}
    {r₀ : Reg} {imm₀ : MoveWideConst} {size₀ : OperandSize} {ks : List (Reg × MoveWideConst)}
    (hregs : (r₀ :: ks.map Prod.fst).Nodup)
    (hslots : (imm₀.shift :: ks.map fun k => k.2.shift).Nodup)
    (hfresh : ∀ r ∈ r₀ :: ks.map Prod.fst, vcode.vregFact r = none) {regs regs' : Regs}
    (hrun : Run regs (.MovWide .MovZ r₀ imm₀ size₀ :: movkChain r₀ ks) regs') :
    (checkInsts ctx vcode (.MovWide .MovZ r₀ imm₀ size₀ :: movkChain r₀ ks)).1 = .ok () ∧
      ∀ r ∈ r₀ :: ks.map Prod.fst,
        (checkInsts ctx vcode (.MovWide .MovZ r₀ imm₀ size₀ :: movkChain r₀ ks)).2.vregFact r =
          some (ctx.constant 64 (regs' r)) := by
  obtain _ | ⟨hstep, hrest⟩ := hrun
  obtain ⟨hd, ⟨hfits, hv⟩⟩ | ⟨_, ⟨⟩⟩ | ⟨⟨⟩⟩ := hstep
  cases hd
  have hr₀ := hfresh r₀ (List.mem_cons_self _ _)
  simp only [checkInsts, check_movZ, checkConstant_of_none hr₀]
  refine movkChain_exact hconst hregs (List.nodup_cons.mp hslots).2 (fun i hi => ?_)
    (vcode.vregFact_setVregFact_self _ _) (fun r hr => ?_)
    (by rw [Function.update_same, hv, chunk_eq_movz hfits]) hrest
  · rw [imm₀.div_sixteen_of_getLsbD_chunk hi]
    exact (List.nodup_cons.mp hslots).1
  · rw [vcode.vregFact_setVregFact_of_ne _ fun h : r = r₀ => (List.nodup_cons.mp hregs).1 (h ▸ hr)]
    exact hfresh r (List.mem_cons_of_mem _ hr)

open RangeFact

def chunk1234 : MoveWideConst := ⟨0x1234, 0, by decide, by decide⟩

def chunk5678 : MoveWideConst := ⟨0x5678, 1, by decide, by decide⟩

-- `movz w0, #0x1234; movk x1, x0, #0x5678, lsl #16` from zeroed registers leaves `0x56781234` in
-- `x1`, and `check` gives `x1` that constant.
theorem checkInsts_movz_movkChain_exact_56781234 :
    let ctx := rangeContext fun _ => 0
    let vcode : VCode RangeFact := ⟨fun _ => none, fun _ => .I64⟩
    let x0 : Reg := ⟨0, .Int⟩
    let ks : List (Reg × MoveWideConst) := [(⟨1, .Int⟩, chunk5678)]
    let regs' := Function.update (Function.update (fun _ => 0) x0 0x1234) ⟨1, .Int⟩ 0x56781234
    (∀ c, ctx.asConst (ctx.constant 64 c) 64 = some c) ∧ (x0 :: ks.map Prod.fst).Nodup ∧
    (chunk1234.shift :: ks.map fun k => k.2.shift).Nodup ∧
    (∀ r ∈ x0 :: ks.map Prod.fst, vcode.vregFact r = none) ∧
    Run (fun _ => 0) (.MovWide .MovZ x0 chunk1234 .Size32 :: movkChain x0 ks) regs' ∧
    (checkInsts ctx vcode (.MovWide .MovZ x0 chunk1234 .Size32 :: movkChain x0 ks)).1 =
      .ok () ∧
    ∀ r ∈ x0 :: ks.map Prod.fst,
      (checkInsts ctx vcode (.MovWide .MovZ x0 chunk1234 .Size32 :: movkChain x0 ks)).2.vregFact
        r = some (ctx.constant 64 (regs' r)) := by
  intro ctx vcode x0 ks regs'
  have hconst := rangeContext_asConst_constant fun _ => 0
  have hrun : Run (fun _ => 0) (.MovWide .MovZ x0 chunk1234 .Size32 :: movkChain x0 ks) regs' :=
    .cons (.write rfl ⟨by decide, by decide⟩) (.cons (.write rfl ⟨by decide, by decide⟩) (.nil _))
  exact ⟨hconst, by decide, by decide, fun _ _ => rfl, hrun,
    checkInsts_movz_movkChain_exact hconst (by decide) (by decide) (fun _ _ => rfl) hrun⟩

end Wasmfxtime.Pcc
