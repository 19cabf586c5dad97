import Wasmfxtime.Pcc.Soundness
import Wasmfxtime.Pcc.Access

/-! # What an accepted function guarantees

Along a trusted run of a prefix of a function that `check` accepts, the facts of the
registers the next access uses are true when it executes, and the bounds check of an access
reads only those facts: every checked access of an accepted function is in bounds. An
accepted function has none of the instructions that `check` rejects whatever the facts.
-/

namespace Wasmfxtime.Pcc

variable {Fact : Type}

/-! ## Accepted functions -/

/-- Memory safety over runs: over a fact context that meets its contract, in a function that
`check` accepts, every checked access through a register-based address is bounds-checked
at the registers it executes with, after every trusted run of the instructions before it,
when its operands are defined before it. -/
theorem checkInsts_access_bounds {ctx : FactContext Fact} {holds : Fact → BitVec 64 → Prop}
    (hs : ctx.Sound holds) {defined : Reg → Prop} {vcode : VCode Fact} {regs regs' : Regs}
    {pre : List Inst} (hrun : TrustedRun ctx holds defined vcode regs pre regs')
    (hf : FactsHoldOn holds vcode regs defined) {inst : Inst} {post : List Inst}
    (hok : (checkInsts ctx vcode (pre ++ inst :: post)).1 = .ok ())
    (huses : ∀ r ∈ inst.uses, defined r ∨ ∃ i ∈ pre, r ∈ i.defs)
    {flags : MemFlags} (hflags : inst.memFlags = some flags) (hchecked : flags.checked = true)
    (hreg : inst.effectiveAddress regs' ≠ none) (hscaled : inst.ScaledByAccessTy) :
    BoundsChecked ctx holds (checkInsts ctx vcode pre).2 regs' inst := by
  have hmid := hrun.factsHoldOn hs hf hok
  exact check_access_bounds_of_uses hs (fun r hr f hfr => hmid r f (huses r hr) hfr) hflags
    hchecked hreg hscaled (checkInsts_cons_ok ctx (checkInsts_append_ok ctx hok).2).1

open RangeFact

def baseVCode : VCode RangeFact :=
  ⟨fun r => if r = ⟨0, .Int⟩ then some (mem 0 0 0) else none, fun _ => .I64⟩

def movzX1 : Inst := .MovWide .MovZ ⟨1, .Int⟩ ⟨2, 0, by decide, by decide⟩ .Size64

theorem movzX1_trustedRun :
    TrustedRun (rangeContext fun _ => 32) (holds fun _ => 0x1000) (fun r => r = ⟨0, .Int⟩)
      baseVCode (fun _ => 0x1000) [movzX1] (Function.update (fun _ => 0x1000) ⟨1, .Int⟩ 2) :=
  .cons (fun _ h => nomatch h) (.write (v := 2) rfl ⟨by decide, by decide⟩)
    ⟨trivial, fun _ _ hd hf _ => by cases hd; simp [baseVCode] at hf, fun _ _ => trivial,
      trivial⟩
    (.nil _ _ _)

theorem baseVCode_factsHoldOn :
    FactsHoldOn (holds fun _ => 0x1000) baseVCode (fun _ => 0x1000) (fun r => r = ⟨0, .Int⟩) := by
  rintro r f rfl h
  cases h
  exact ⟨0, le_rfl, le_rfl, rfl⟩

theorem ldrScaled_uses_movzX1 :
    ∀ r ∈ (ldrScaled .I64).uses, r = ⟨0, .Int⟩ ∨ ∃ i ∈ [movzX1], r ∈ i.defs := by
  simp only [ldrScaled, Inst.uses, AMode.regs, List.mem_cons, List.mem_singleton,
    List.not_mem_nil, or_false, exists_eq_left]
  rintro r (rfl | rfl)
  · exact .inl rfl
  · exact .inr (List.mem_singleton_self _)

theorem ldrScaled_scaledByAccessTy : (ldrScaled .I64).ScaledByAccessTy :=
  fun _ h => (Option.some.inj h).symm

theorem checkInsts_movzX1_ldrScaled :
    (checkInsts (rangeContext fun _ => 32) baseVCode ([movzX1] ++ [ldrScaled .I64])).1 =
      .ok () := rfl

-- `movz x1, #2; ldr x2, [x0, x1, lsl #3]` over the 32-byte region 0 at `0x1000`: the load reads
-- bytes 16 to 23.
theorem checkInsts_access_bounds_movz_ldr :
    (rangeContext fun _ => 32).Sound (holds fun _ => 0x1000) ∧
    TrustedRun (rangeContext fun _ => 32) (holds fun _ => 0x1000) (fun r => r = ⟨0, .Int⟩)
      baseVCode (fun _ => 0x1000) [movzX1] (Function.update (fun _ => 0x1000) ⟨1, .Int⟩ 2) ∧
    FactsHoldOn (holds fun _ => 0x1000) baseVCode (fun _ => 0x1000) (fun r => r = ⟨0, .Int⟩) ∧
    (checkInsts (rangeContext fun _ => 32) baseVCode ([movzX1] ++ [ldrScaled .I64])).1 =
      .ok () ∧
    (∀ r ∈ (ldrScaled .I64).uses, r = ⟨0, .Int⟩ ∨ ∃ i ∈ [movzX1], r ∈ i.defs) ∧
    (ldrScaled .I64).memFlags = some ⟨true⟩ ∧
    (ldrScaled .I64).effectiveAddress (Function.update (fun _ => 0x1000) ⟨1, .Int⟩ 2) ≠ none ∧
    (ldrScaled .I64).ScaledByAccessTy ∧
    BoundsChecked (rangeContext fun _ => 32) (holds fun _ => 0x1000)
      (checkInsts (rangeContext fun _ => 32) baseVCode [movzX1]).2
      (Function.update (fun _ => 0x1000) ⟨1, .Int⟩ 2) (ldrScaled .I64) :=
  have hs := rangeContext_sound (fun _ => 32) (fun _ => 0x1000)
  ⟨hs, movzX1_trustedRun, baseVCode_factsHoldOn, rfl, ldrScaled_uses_movzX1, rfl, by decide,
    ldrScaled_scaledByAccessTy,
    checkInsts_access_bounds hs movzX1_trustedRun baseVCode_factsHoldOn
      checkInsts_movzX1_ldrScaled ldrScaled_uses_movzX1
      rfl rfl (by decide) ldrScaled_scaledByAccessTy⟩

/-! ## Accesses stay inside their regions -/

theorem rangeContext_accessSucceeds {size : Nat → Nat} {vcode : VCode RangeFact} {a : RangeFact}
    {t : Ty} {inst : Inst} (h : AccessSucceeds (rangeContext size) vcode a t inst) :
    ∃ r lo hi, a = mem r lo hi ∧ hi + t.bytes ≤ size r := by
  unfold AccessSucceeds at h
  dsimp only [rangeContext] at h
  split at h
  · exact store_ok h
  · exact store_ok h
  · obtain ⟨_, h⟩ := h
    exact load_ok h

/-- Memory safety over runs, over the facts of ranges and regions with region `r` of `size r`
bytes at `base r`: in a function that `check` accepts, every checked access through a
register-based address, after every trusted run of the instructions before it, reads or
writes only bytes of one region, at offsets from `off` to below `off` plus its size. -/
theorem checkInsts_access_in_region {size base : Nat → Nat} {defined : Reg → Prop}
    {vcode : VCode RangeFact} {regs regs' : Regs} {pre : List Inst}
    (hrun : TrustedRun (rangeContext size) (holds base) defined vcode regs pre regs')
    (hf : FactsHoldOn (holds base) vcode regs defined) {inst : Inst} {post : List Inst}
    (hok : (checkInsts (rangeContext size) vcode (pre ++ inst :: post)).1 = .ok ())
    (huses : ∀ r ∈ inst.uses, defined r ∨ ∃ i ∈ pre, r ∈ i.defs)
    {flags : MemFlags} (hflags : inst.memFlags = some flags) (hchecked : flags.checked = true)
    (hreg : inst.effectiveAddress regs' ≠ none) (hscaled : inst.ScaledByAccessTy) :
    ∃ r off ty, inst.effectiveAddress regs' = some (BitVec.ofNat 64 (base r + off)) ∧
      inst.accessTy = some ty ∧ off + ty.bytes ≤ size r := by
  have hs := rangeContext_sound size base
  have hmid := hrun.factsHoldOn hs hf hok
  obtain ⟨a, t, ea, ty, -, hea, hty, hholds, hbytes, hacc⟩ :=
    check_access_bounds_of_uses hs (fun r hr f hfr => hmid r f (huses r hr) hfr) hflags
      hchecked hreg hscaled (checkInsts_cons_ok _ (checkInsts_append_ok _ hok).2).1
  obtain ⟨r, lo, hi, rfl, hroom⟩ := rangeContext_accessSucceeds hacc
  obtain ⟨off, -, hoff, rfl⟩ := hholds
  exact ⟨r, off, ty, hea, hty, by omega⟩

-- `movz x1, #2; ldr x2, [x0, x1, lsl #3]` over the 32-byte region 0 at `0x1000`: the load stays
-- inside region 0.
theorem checkInsts_access_in_region_movz_ldr :
    TrustedRun (rangeContext fun _ => 32) (holds fun _ => 0x1000) (fun r => r = ⟨0, .Int⟩)
      baseVCode (fun _ => 0x1000) [movzX1] (Function.update (fun _ => 0x1000) ⟨1, .Int⟩ 2) ∧
    FactsHoldOn (holds fun _ => 0x1000) baseVCode (fun _ => 0x1000) (fun r => r = ⟨0, .Int⟩) ∧
    (checkInsts (rangeContext fun _ => 32) baseVCode ([movzX1] ++ [ldrScaled .I64])).1 =
      .ok () ∧
    (∀ r ∈ (ldrScaled .I64).uses, r = ⟨0, .Int⟩ ∨ ∃ i ∈ [movzX1], r ∈ i.defs) ∧
    (ldrScaled .I64).memFlags = some ⟨true⟩ ∧
    (ldrScaled .I64).effectiveAddress (Function.update (fun _ => 0x1000) ⟨1, .Int⟩ 2) ≠ none ∧
    (ldrScaled .I64).ScaledByAccessTy ∧
    ∃ (r off : Nat) (ty : Ty),
      (ldrScaled .I64).effectiveAddress (Function.update (fun _ => 0x1000) ⟨1, .Int⟩ 2) =
        some (BitVec.ofNat 64 ((fun _ => 0x1000) r + off)) ∧
      (ldrScaled .I64).accessTy = some ty ∧ off + ty.bytes ≤ (fun _ => 32) r :=
  ⟨movzX1_trustedRun, baseVCode_factsHoldOn, rfl, ldrScaled_uses_movzX1, rfl, by decide,
    ldrScaled_scaledByAccessTy,
    checkInsts_access_in_region movzX1_trustedRun baseVCode_factsHoldOn
      checkInsts_movzX1_ldrScaled ldrScaled_uses_movzX1
      rfl rfl (by decide) ldrScaled_scaledByAccessTy⟩

/-! ## What an accepted function never contains -/

def Inst.IsPair : Inst → Prop
  | .LoadPair .. | .StorePair .. => True
  | _ => False

/-- The instructions that reach the last arms of `check` from the store `vcode`: the ones it
does not match, the sign-extensions, and the zero-extensions whose operand has no fact. -/
def Inst.IsUnmatched (vcode : VCode Fact) : Inst → Prop
  | .Other .. => True
  | .Extend _ rn signed _ _ => ¬ (signed = false ∧ hasFact vcode rn = true)
  | _ => False

theorem check_ok_closed {ctx : FactContext Fact} {vcode : VCode Fact} {inst : Inst}
    (hok : (check ctx vcode inst).1 = .ok ()) :
    ¬ inst.IsPair ∧ (inst.IsUnmatched vcode → ∀ r ∈ inst.defs, vcode.vregFact r = none) := by
  cases inst <;> simp only [Inst.IsPair, Inst.IsUnmatched, not_false_eq_true, false_implies,
    and_true, true_implies, true_and]
  case LoadPair | StorePair => simp [check, checkLoadPair, checkStorePair] at hok
  case Extend rd rn signed fromBits toBits =>
    intro hu
    simp only [check, if_neg hu] at hok
    exact (checkUnmatched_ok hok).2
  case Other => exact (checkUnmatched_ok hok).2

/-- Fail-closed: a function that `check` accepts from a store contains no register-pair load
or store, and none of its instructions that reach the last arms of `check` (one it does not
match, a sign-extension, or a zero-extension whose operand has no fact at that point)
defines a register that carries a fact in the store the function starts from. -/
theorem checkInsts_fail_closed (ctx : FactContext Fact) (vcode : VCode Fact)
    (insts : List Inst) (hok : (checkInsts ctx vcode insts).1 = .ok ()) :
    ∀ pre inst post, insts = pre ++ inst :: post →
      ¬ inst.IsPair ∧ (inst.IsUnmatched (checkInsts ctx vcode pre).2 →
        ∀ r ∈ inst.defs, vcode.vregFact r = none) := by
  rintro pre inst post rfl
  obtain ⟨hpair, hdefs⟩ :=
    check_ok_closed (checkInsts_cons_ok ctx (checkInsts_append_ok ctx hok).2).1
  refine ⟨hpair, fun hu r hr => ?_⟩
  cases hv : vcode.vregFact r with
  | none => rfl
  | some f => simpa only [checkInsts_keeps_fact ctx vcode pre hv] using hdefs hu r hr

-- `movz x1, #2`, an instruction `check` does not match defining `x2` from `x1`, and a
-- zero-extension of `x2` into `x3`, which has no fact.
theorem checkInsts_fail_closed_movz_other_uxtw :
    (checkInsts (rangeContext fun _ => 32) baseVCode
      [movzX1, .Other [⟨2, .Int⟩] [⟨1, .Int⟩], .Extend ⟨3, .Int⟩ ⟨2, .Int⟩ false 32 64]).1 =
      .ok () ∧
    ∀ pre inst post,
      [movzX1, .Other [⟨2, .Int⟩] [⟨1, .Int⟩], .Extend ⟨3, .Int⟩ ⟨2, .Int⟩ false 32 64] =
        pre ++ inst :: post →
      ¬ inst.IsPair ∧ (inst.IsUnmatched (checkInsts (rangeContext fun _ => 32) baseVCode pre).2 →
        ∀ r ∈ inst.defs, baseVCode.vregFact r = none) :=
  ⟨rfl, checkInsts_fail_closed (rangeContext fun _ => 32) baseVCode _ rfl⟩

end Wasmfxtime.Pcc
