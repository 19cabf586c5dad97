import Wasmfxtime.Pcc.Commute
import Wasmfxtime.Pcc.Safety

/-! # Checking a function again

The facts `check` derives are facts it would accept as declared: in single-assignment code,
checking a function again from the store an accepted check left takes the declared-fact
branch wherever the first check gave a fact, compares the derived fact with itself, and
adds nothing.
-/

namespace Wasmfxtime.Pcc

variable {Fact : Type}

/-- Modelled from the spec: each register is defined at most once, and before it is used, in
program order; no instruction defines a register that it uses. -/
def SingleAssignment : List Inst → Prop
  | [] => True
  | inst :: insts =>
    (∀ r ∈ inst.defs, r ∉ inst.uses) ∧ (∀ i ∈ insts, ∀ r ∈ i.defs, r ∉ inst.regs) ∧
      SingleAssignment insts

instance decidableSingleAssignment : (insts : List Inst) → Decidable (SingleAssignment insts)
  | [] => isTrue trivial
  | _ :: insts =>
    have := decidableSingleAssignment insts
    inferInstanceAs (Decidable (_ ∧ _ ∧ SingleAssignment insts))

theorem checkOutput_nil_snd (ctx : FactContext Fact) (vcode : VCode Fact) (out : Reg)
    (F : VCode Fact → PccResult Fact) : (checkOutput ctx vcode out [] F).2 = vcode := by
  unfold checkOutput
  split <;> rfl

theorem checkUnmatched_snd (vcode : VCode Fact) (inst : Inst) :
    (checkUnmatched vcode inst).2 = vcode := by
  unfold checkUnmatched
  split <;> rfl

section Recheck

variable {ctx : FactContext Fact} (hrefl : ∀ f, ctx.subsumes f f = true)
  {vcode : VCode Fact} {out : Reg} {d : Fact}
include hrefl

theorem checkSubsumes_self (f : Fact) : checkSubsumes ctx f f = .ok () := by
  unfold checkSubsumes
  split
  · rfl
  · rw [if_pos (hrefl f)]

theorem checkOutput_recheck {ins : List Reg} {F : VCode Fact → PccResult Fact}
    (hnone : vcode.vregFact out = none) (hF : F (vcode.setVregFact out d) = F vcode)
    (h : (checkOutput ctx vcode out ins F).2 = vcode.setVregFact out d) :
    checkOutput ctx (vcode.setVregFact out d) out ins F = (.ok (), vcode.setVregFact out d) := by
  have hne : vcode ≠ vcode.setVregFact out d := fun he => by
    simpa [hnone] using congrArg (fun vc : VCode Fact => vc.vregFact out) he
  simp only [checkOutput, hnone] at h
  split at h
  · split at h
    · next f hf =>
      have : f = d := by simpa using congrArg (fun vc : VCode Fact => vc.vregFact out) h
      subst this
      simp only [checkOutput, VCode.vregFact_setVregFact_self, hF, hf, Except.bind,
        checkSubsumes_self hrefl]
    · exact absurd h hne
  · exact absurd h hne

theorem checkConstant_recheck {w : Nat} {c : BitVec 64} (hnone : vcode.vregFact out = none)
    (h : (checkConstant ctx vcode out w c).2 = vcode.setVregFact out d) :
    checkConstant ctx (vcode.setVregFact out d) out w c = (.ok (), vcode.setVregFact out d) := by
  simp only [checkConstant, hnone] at h
  have : ctx.constant w c = d := by
    simpa using congrArg (fun vc : VCode Fact => vc.vregFact out) h
  subst this
  simp only [checkConstant, VCode.vregFact_setVregFact_self, checkSubsumes_self hrefl]

/-- One step: in an instruction that uses none of the registers it defines, checking again
from the store an accepted check left changes nothing. -/
theorem check_recheck {inst : Inst} (hdu : ∀ r ∈ inst.defs, r ∉ inst.uses)
    (hok : (check ctx vcode inst).1 = .ok ()) :
    check ctx (check ctx vcode inst).2 inst = (.ok (), (check ctx vcode inst).2) := by
  rcases check_installs ctx vcode inst with hkeep | ⟨rd, d, hd, hnone, heq⟩
  · rw [hkeep]
    exact Prod.ext hok hkeep
  rw [heq]
  have hrd := hdu rd (Inst.dest_mem_defs hd)
  have h2 := congrArg Prod.snd heq
  have hne : vcode ≠ vcode.setVregFact rd d := fun he => by
    simpa [hnone] using congrArg (fun vc : VCode Fact => vc.vregFact rd) he
  clear heq hdu
  cases inst <;> simp only [Inst.dest, Option.some.injEq, reduceCtorEq] at hd <;> subst hd <;>
    simp only [Inst.uses, List.mem_cons, List.not_mem_nil, or_false, not_or] at hrd
  case Load | VecLoadReplicate | LoadAcquire => exact absurd h2 hne
  case AluRRR | AluRRRShift | AluRRRExtend =>
    simp only [check, hasFact_setVregFact hrd.1, hasFact_setVregFact hrd.2] at h2 ⊢
    split_ifs at h2 ⊢
    · exact checkOutput_recheck hrefl hnone
        (by simp only [getFactOrDefault_setVregFact hrd.1, getFactOrDefault_setVregFact hrd.2]) h2
    · exact absurd ((checkOutput_nil_snd ctx vcode _ _).symm.trans h2) hne
  case AluRRImm12 | AluRRImmShift | Extend =>
    simp only [check, hasFact_setVregFact hrd] at h2 ⊢
    split_ifs at h2 ⊢
    · exact checkOutput_recheck hrefl hnone (by simp only [getFactOrDefault_setVregFact hrd]) h2
    · first
      | exact absurd ((checkOutput_nil_snd ctx vcode _ _).symm.trans h2) hne
      | exact absurd ((checkUnmatched_snd vcode _).symm.trans h2) hne
  case AluRRImmLogic => exact absurd ((checkOutput_nil_snd ctx vcode _ _).symm.trans h2) hne
  case MovWide op _ _ _ => cases op <;> exact checkConstant_recheck hrefl hnone h2
  case MovK _ rn imm size =>
    simp only [check, getFactOrDefault_setVregFact hrd] at h2 ⊢
    cases hin : getFactOrDefault ctx vcode rn with
    | error e =>
      simp only [hin] at h2
      exact absurd h2 hne
    | ok input =>
      simp only [hin] at h2 ⊢
      cases hc : ctx.asConst input 64 with
      | some c =>
        simp only [hc] at h2 ⊢
        exact checkConstant_recheck hrefl hnone h2
      | none =>
        simp only [hc] at h2
        exact absurd ((checkOutput_nil_snd ctx vcode _ _).symm.trans h2) hne

end Recheck

section Later

variable {ctx : FactContext Fact} {vc : VCode Fact} {inst : Inst}

/-- A step that keeps the store stays so after another instruction defines only registers it
neither defines nor uses. -/
theorem check_fixed_of_check {i : Inst} (hdisj : ∀ r ∈ i.defs, r ∉ inst.regs)
    (h : check ctx vc inst = (.ok (), vc)) :
    check ctx (check ctx vc i).2 inst = (.ok (), (check ctx vc i).2) := by
  rcases check_installs ctx vc i with hkeep | ⟨rd, f, hd, -, heq⟩
  · rw [hkeep, h]
  · simp only [heq, check_setVregFact (hdisj rd (Inst.dest_mem_defs hd)), h]

theorem check_fixed_of_checkInsts {post : List Inst}
    (hdisj : ∀ i ∈ post, ∀ r ∈ i.defs, r ∉ inst.regs) (h : check ctx vc inst = (.ok (), vc)) :
    check ctx (checkInsts ctx vc post).2 inst = (.ok (), (checkInsts ctx vc post).2) := by
  induction post generalizing vc with
  | nil => exact h
  | cons i post ih =>
    have hi := check_fixed_of_check (hdisj i (List.mem_cons_self _ _)) h
    cases hres : (check ctx vc i).1 with
    | ok u =>
      rw [checkInsts_cons_of_ok ctx hres]
      exact ih (fun j hj => hdisj j (List.mem_cons_of_mem _ hj)) hi
    | error e =>
      rw [checkInsts_cons_of_error ctx hres]
      exact hi

end Later

/-- Checking again changes nothing: over a fact context whose subsumption is reflexive, a
single-assignment function that `check` accepts is accepted again from the store the check
left, and no fact is added. -/
theorem checkInsts_recheck {ctx : FactContext Fact} (hrefl : ∀ f, ctx.subsumes f f = true)
    {vcode : VCode Fact} {insts : List Inst} (hssa : SingleAssignment insts)
    (hok : (checkInsts ctx vcode insts).1 = .ok ()) :
    checkInsts ctx (checkInsts ctx vcode insts).2 insts = (.ok (), (checkInsts ctx vcode insts).2) := by
  induction insts generalizing vcode with
  | nil => rfl
  | cons inst post ih =>
    obtain ⟨hdu, hlater, hssa⟩ := hssa
    obtain ⟨hi, hrest⟩ := checkInsts_cons_ok ctx hok
    have hfix := check_fixed_of_checkInsts hlater (check_recheck hrefl hdu hi)
    rw [checkInsts_cons_of_ok ctx hi, checkInsts_cons_of_ok ctx (by rw [hfix]), hfix]
    exact ih hssa hrest

open RangeFact

theorem rangeContext_subsumes_self (size : Nat → Nat) (f : RangeFact) :
    (rangeContext size).subsumes f f = true := by
  cases f <;> simp [rangeContext, subsumes]

-- `movz x0, #5; add x1, x0, x0` from a store without facts: the second check starts from `x0 = 5`
-- and `x1 = 10` and keeps them.
theorem checkInsts_recheck_movzAdd :
    (∀ f, (rangeContext fun _ => 0).subsumes f f = true) ∧ SingleAssignment movzAdd ∧
    (checkInsts (rangeContext fun _ => 0) ⟨fun _ => none, fun _ => .I64⟩ movzAdd).1 = .ok () ∧
    checkInsts (rangeContext fun _ => 0)
      (checkInsts (rangeContext fun _ => 0) ⟨fun _ => none, fun _ => .I64⟩ movzAdd).2 movzAdd =
      (.ok (), (checkInsts (rangeContext fun _ => 0) ⟨fun _ => none, fun _ => .I64⟩ movzAdd).2) :=
  ⟨rangeContext_subsumes_self _, by decide, rfl,
    checkInsts_recheck (rangeContext_subsumes_self _) (by decide) rfl⟩

end Wasmfxtime.Pcc
