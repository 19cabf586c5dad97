import Wasmfxtime.Pcc.Frame
import Wasmfxtime.Pcc.Constants

/-! # Soundness of `check` over runs

A successful `check` keeps the facts of the defined registers true, given what the checker
trusts: a `Mem` fact declared on a destination, which `check_subsumes` accepts as it is,
the OR that the `MovK` rule takes for the value `MOVK` writes, and the facts of loaded
values that it takes from `ctx.load` or does not compare.
-/

namespace Wasmfxtime.Pcc

variable {Fact : Type}

def FactsHoldOn (holds : Fact → BitVec 64 → Prop) (vcode : VCode Fact) (regs : Regs)
    (defined : Reg → Prop) : Prop :=
  ∀ r f, defined r → vcode.vregFact r = some f → holds f (regs r)

/-- What a load trusts about the value `v` it reads: every fact `ctx.load` derives for the
access holds of it, and so does a fact declared on the destination that `check` does not
compare with the loaded one. -/
def LoadTrusted (ctx : FactContext Fact) (holds : Fact → BitVec 64 → Prop) (vcode : VCode Fact)
    (inst : Inst) (v : BitVec 64) : Prop :=
  match inst with
  | .Load op rd mem flags =>
    (∀ a t f, amodeFact ctx vcode mem op.ty = .ok (some (a, t)) → ctx.load a t = .ok (some f) →
      holds f v) ∧
    (flags.checked = false ∨ op.resultReg rd = none ∨ amodeFact ctx vcode mem op.ty = .ok none →
      ∀ F, vcode.vregFact rd = some F → holds F v)
  | .VecLoadReplicate rd .. | .LoadAcquire _ rd _ _ =>
    ∀ F, vcode.vregFact rd = some F → holds F v
  | _ => True

/-- What `check` trusts at one step: a `MOVK` writes the OR of its input and its chunk, a
`Mem` fact declared on the destination holds of the value written, and so do the facts a
load trusts and the facts declared on the arguments, whose values the ABI passes. -/
def Trusted (ctx : FactContext Fact) (holds : Fact → BitVec 64 → Prop) (vcode : VCode Fact)
    (regs : Regs) (inst : Inst) (regs' : Regs) : Prop :=
  inst.MovKIsOr regs ∧
  (∀ rd f, inst.dest = some rd → vcode.vregFact rd = some f → ctx.isMem f = true →
    holds f (regs' rd)) ∧
  (∀ rd, inst.dest = some rd → LoadTrusted ctx holds vcode inst (regs' rd)) ∧
  match inst with
  | .Args defs => ∀ r ∈ defs, ∀ f, vcode.vregFact r = some f → holds f (regs' r)
  | _ => True

theorem checkUnmatched_ok {vcode : VCode Fact} {inst : Inst}
    (h : (checkUnmatched vcode inst).1 = .ok ()) :
    (checkUnmatched vcode inst).2 = vcode ∧ ∀ r ∈ inst.defs, vcode.vregFact r = none := by
  unfold checkUnmatched at h ⊢
  refine ⟨by split <;> rfl, fun r hr => ?_⟩
  split at h
  · cases h
  · next hno =>
    simp only [VCode.instDefinesFacts, List.any_eq_true, not_exists, not_and] at hno
    exact Option.not_isSome_iff_eq_none.mp (hno r hr)

theorem toNat_lt_of_ite_lowBits {p : Prop} [Decidable p] {w : Nat} {v x : BitVec 64}
    (hw : w ≤ 64) (h : if p then v = lowBits w x else v.toNat < 2 ^ w) : v.toNat < 2 ^ w := by
  split at h
  · rw [h, toNat_lowBits x hw]
    exact Nat.mod_lt _ (Nat.two_pow_pos w)
  · exact h

theorem lowBits_add_lowBits {w : Nat} (hw : w ≤ 64) (x y : BitVec 64) :
    lowBits w (x + lowBits w y) = lowBits w (x + y) := by
  apply BitVec.eq_of_toNat_eq
  simp only [lowBits, BitVec.toNat_ofNat, BitVec.toNat_add, Nat.mod_mod_of_dvd _
    (Nat.pow_dvd_pow 2 hw), Nat.add_mod_mod]

theorem factsHoldOn_update {holds : Fact → BitVec 64 → Prop} {vcode : VCode Fact} {regs : Regs}
    {defined : Reg → Prop} {rd : Reg} {v : BitVec 64} {res : PccResult Unit × VCode Fact}
    (hf : FactsHoldOn holds vcode regs defined) (hi : Installs vcode (some rd) res)
    (hrd : ∀ f, res.2.vregFact rd = some f → holds f v) :
    FactsHoldOn holds res.2 (Function.update regs rd v) fun r => defined r ∨ r = rd := by
  intro r f hr h
  by_cases hr' : r = rd
  · subst hr'
    simpa using hrd f h
  · rw [Function.update_noteq hr']
    rcases (Installs.frameStep hi).2.2 r with he | ⟨hd, -, -⟩
    · exact hf r f (hr.resolve_right hr') (he ▸ h)
    · exact absurd (Option.some.inj hd).symm hr'

theorem factsHoldOn_writeDefs {holds : Fact → BitVec 64 → Prop} {vcode : VCode Fact}
    {regs vals : Regs} {defined : Reg → Prop} {defs : List Reg}
    (hf : FactsHoldOn holds vcode regs defined)
    (hdefs : ∀ r ∈ defs, ∀ f, vcode.vregFact r = some f → holds f (vals r)) :
    FactsHoldOn holds vcode (fun r => if r ∈ defs then vals r else regs r)
      fun r => defined r ∨ r ∈ defs := by
  intro r f hr h
  dsimp only
  split
  · exact hdefs r ‹_› f h
  · exact hf r f (hr.resolve_right ‹_›) h

section Contract

variable {ctx : FactContext Fact} {holds : Fact → BitVec 64 → Prop} (hs : ctx.Sound holds)
  {vcode : VCode Fact}
include hs

theorem checkSubsumes_sound {d F : Fact} {v : BitVec 64} (h : checkSubsumes ctx d F = .ok ())
    (hd : holds d v) (hmem : ctx.isMem F = true → holds F v) : holds F v := by
  unfold checkSubsumes at h
  split at h
  · exact hmem ‹_›
  · split at h
    · exact hs.subsumes ‹_› hd
    · cases h

theorem checkOutput_sound {out : Reg} {ins : List Reg} {f : VCode Fact → PccResult Fact}
    {v : BitVec 64} (hok : (checkOutput ctx vcode out ins f).1 = .ok ())
    (hder : ∀ d, f vcode = .ok d → holds d v)
    (hmem : ∀ F, vcode.vregFact out = some F → ctx.isMem F = true → holds F v) :
    ∀ F, (checkOutput ctx vcode out ins f).2.vregFact out = some F → holds F v := by
  unfold checkOutput at hok ⊢
  cases hv : vcode.vregFact out with
  | some F =>
    simp only [hv, Option.some.injEq, forall_eq'] at hok ⊢
    cases hd : f vcode with
    | error e => simp only [hd, Except.bind, reduceCtorEq] at hok
    | ok d =>
      simp only [hd, Except.bind] at hok
      exact checkSubsumes_sound hs hok (hder d hd) (hmem F hv)
  | none =>
    simp only [hv] at hok ⊢
    split
    · split
      · next d hd => simpa using hder d hd
      · simp [hv]
    · simp [hv]

theorem checkConstant_sound {out : Reg} {w : Nat} {c : BitVec 64}
    (hok : (checkConstant ctx vcode out w c).1 = .ok ())
    (hmem : ∀ F, vcode.vregFact out = some F → ctx.isMem F = true → holds F c) :
    ∀ F, (checkConstant ctx vcode out w c).2.vregFact out = some F → holds F c := by
  unfold checkConstant at hok ⊢
  cases hv : vcode.vregFact out with
  | some F =>
    simp only [hv, Option.some.injEq, forall_eq'] at hok ⊢
    exact checkSubsumes_sound hs hok (hs.constant w c) (hmem F hv)
  | none => simpa using hs.constant w c

theorem checkAluMaxRange_sound {rd : Reg} {size : OperandSize} {v : BitVec 64}
    (hok : (checkAluMaxRange ctx vcode rd size).1 = .ok ()) (hlt : v.toNat < 2 ^ size.bits)
    (hmem : ∀ F, vcode.vregFact rd = some F → ctx.isMem F = true → holds F v) :
    ∀ F, (checkAluMaxRange ctx vcode rd size).2.vregFact rd = some F → holds F v :=
  checkOutput_sound hs hok (fun d hd => by cases hd; exact hs.maxRangeForWidth _ v hlt) hmem

theorem checkUnop_sound {out ra : Reg} {f : Fact → PccResult Fact} {regs : Regs} {v : BitVec 64}
    (hok : (checkUnop ctx vcode out ra f).1 = .ok ())
    (ha : ∀ f, vcode.vregFact ra = some f → holds f (regs ra))
    (hder : ∀ a d, holds a (regs ra) → f a = .ok d → holds d v)
    (hmem : ∀ F, vcode.vregFact out = some F → ctx.isMem F = true → holds F v) :
    ∀ F, (checkUnop ctx vcode out ra f).2.vregFact out = some F → holds F v :=
  checkOutput_sound hs hok (fun d hd => by
    obtain ⟨a, hfa, hd⟩ := bind_eq_ok.mp hd
    exact hder a d (getFactOrDefault_sound hs ha hfa) hd) hmem

theorem checkBinop_sound {out ra rb : Reg} {f : Fact → Fact → PccResult Fact} {regs : Regs}
    {v : BitVec 64} (hok : (checkBinop ctx vcode out ra rb f).1 = .ok ())
    (ha : ∀ f, vcode.vregFact ra = some f → holds f (regs ra))
    (hb : ∀ f, vcode.vregFact rb = some f → holds f (regs rb))
    (hder : ∀ a b d, holds a (regs ra) → holds b (regs rb) → f a b = .ok d → holds d v)
    (hmem : ∀ F, vcode.vregFact out = some F → ctx.isMem F = true → holds F v) :
    ∀ F, (checkBinop ctx vcode out ra rb f).2.vregFact out = some F → holds F v :=
  checkOutput_sound hs hok (fun d hd => by
    simp only [bind_eq_ok] at hd
    obtain ⟨a, hfa, b, hfb, hd⟩ := hd
    exact hder a b d (getFactOrDefault_sound hs ha hfa) (getFactOrDefault_sound hs hb hfb) hd)
    hmem

theorem ite_checkAluMaxRange_sound {g : Prop} [Decidable g] {res : PccResult Unit × VCode Fact}
    {rd : Reg} {size : OperandSize} {v : BitVec 64}
    (hok : (if g then res else checkAluMaxRange ctx vcode rd size).1 = .ok ())
    (hg : g → res.1 = .ok () → ∀ F, res.2.vregFact rd = some F → holds F v)
    (hlt : v.toNat < 2 ^ size.bits)
    (hmem : ∀ F, vcode.vregFact rd = some F → ctx.isMem F = true → holds F v) :
    ∀ F, (if g then res else checkAluMaxRange ctx vcode rd size).2.vregFact rd = some F →
      holds F v := by
  by_cases h : g
  · rw [if_pos h] at hok ⊢
    exact hg h hok
  · rw [if_neg h] at hok ⊢
    exact checkAluMaxRange_sound hs hok hlt hmem

theorem checkLoad_sound {op : LoadOp} {rd : Reg} {mem : AMode} {flags : MemFlags}
    {v : BitVec 64} (hok : checkLoad ctx (op.resultReg rd) flags mem vcode op.ty = .ok ())
    (hload : LoadTrusted ctx holds vcode (.Load op rd mem flags) v) :
    ∀ F, vcode.vregFact rd = some F → holds F v := by
  obtain ⟨hcontract, htrust⟩ := hload
  intro F hF
  by_cases hc : flags.checked = false ∨ op.resultReg rd = none ∨
      amodeFact ctx vcode mem op.ty = .ok none
  · exact htrust hc F hF
  simp only [not_or, Bool.not_eq_false] at hc
  obtain ⟨hchecked, hres, hnone⟩ := hc
  simp only [checkLoad, checkAddr, (op.resultReg_cases rd).resolve_left hres, Option.some_bind,
    hF, hchecked, Bool.not_true, Bool.false_eq_true, if_false] at hok
  obtain ⟨o, ho, hacc⟩ := bind_eq_ok.mp hok
  rcases o with _ | ⟨a, t⟩
  · exact absurd ho hnone
  obtain ⟨loaded, hl, hsub⟩ := bind_eq_ok.mp hacc
  split at hsub
  · obtain ⟨a', rfl, himp⟩ := hs.subsumesFactOptionals (v := v) ‹_›
    exact himp (hcontract a t a' ho hl)
  · cases hsub

theorem check_dest_sound {regs : Regs} {inst : Inst} {rd : Reg} {v : BitVec 64}
    (hget : ∀ r ∈ inst.uses, ∀ f, vcode.vregFact r = some f → holds f (regs r))
    (hd : inst.dest = some rd) (hw : inst.Writes regs v) (hmovk : inst.MovKIsOr regs)
    (hmem : ∀ F, vcode.vregFact rd = some F → ctx.isMem F = true → holds F v)
    (hload : LoadTrusted ctx holds vcode inst v) (hok : (check ctx vcode inst).1 = .ok ()) :
    ∀ F, (check ctx vcode inst).2.vregFact rd = some F → holds F v := by
  cases inst <;> simp only [Inst.dest, Option.some.injEq, reduceCtorEq] at hd <;> subst hd <;>
    simp only [Inst.Writes] at hw <;>
    simp only [Inst.uses, List.forall_mem_cons, List.not_mem_nil, false_implies, implies_true,
      and_true] at hget
  case Load => exact checkLoad_sound hs hok hload
  case VecLoadReplicate | LoadAcquire => exact hload
  case AluRRR aluOp size _ rn rm =>
    refine ite_checkAluMaxRange_sound hs hok (fun hadd hok => ?_)
      (toNat_lt_of_ite_lowBits size.bits_le hw) hmem
    rw [if_pos hadd] at hw
    exact checkBinop_sound hs hok hget.1 hget.2 (fun a b d ha hb hd =>
      hw ▸ hs.add (failIfMissing_eq_ok.mp hd) ha hb) hmem
  case AluRRImm12 aluOp size _ rn imm12 =>
    refine ite_checkAluMaxRange_sound hs hok (fun hadd hok => ?_)
      (toNat_lt_of_ite_lowBits size.bits_le hw) hmem
    rw [if_pos hadd] at hw
    exact checkUnop_sound hs hok hget (fun a d ha hd =>
      hw ▸ hs.add (failIfMissing_eq_ok.mp hd) ha (hs.constant _ _)) hmem
  case AluRRRShift aluOp size _ rn rm shiftop =>
    refine ite_checkAluMaxRange_sound hs hok (fun hg hok => ?_)
      (toNat_lt_of_ite_lowBits size.bits_le hw) hmem
    rw [if_pos ⟨hg.1, hg.2.1⟩] at hw
    refine checkBinop_sound hs hok hget.1 hget.2 (fun a b d ha hb hd => ?_) hmem
    obtain ⟨sh, hsh, hd⟩ := bind_eq_ok.mp hd
    have := hs.add (failIfMissing_eq_ok.mp hd) ha (hs.shl (failIfMissing_eq_ok.mp hsh) hb)
    rwa [lowBits_add_lowBits size.bits_le, ← hw] at this
  case AluRRRExtend aluOp size _ rn rm extendop =>
    refine ite_checkAluMaxRange_sound hs hok (fun hg hok => ?_)
      (toNat_lt_of_ite_lowBits size.bits_le hw) hmem
    rw [if_pos hg.1] at hw
    refine checkBinop_sound hs hok hget.1 hget.2 (fun a b d ha hb hd => ?_) hmem
    obtain ⟨e, he, hd⟩ := bind_eq_ok.mp hd
    exact hw ▸ hs.add (failIfMissing_eq_ok.mp hd) ha
      (extendFact_sound hs (failIfMissing_eq_ok.mp he) hb)
  case AluRRImmLogic size _ _ _ => exact checkAluMaxRange_sound hs hok hw hmem
  case AluRRImmShift aluOp size _ rn immshift =>
    refine ite_checkAluMaxRange_sound hs hok (fun hg hok => ?_)
      (toNat_lt_of_ite_lowBits size.bits_le hw) hmem
    rw [if_pos hg.1] at hw
    exact checkUnop_sound hs hok hget (fun a d ha hd =>
      hw ▸ hs.shl (failIfMissing_eq_ok.mp hd) ha) hmem
  case Extend rd rn signed fromBits toBits =>
    simp only [check] at hok ⊢
    by_cases hg : signed = false ∧ hasFact vcode rn
    · rw [if_pos hg] at hok ⊢
      simp only [hg.1, Bool.false_eq_true, if_false] at hw
      exact checkUnop_sound hs hok hget (fun a d ha hd =>
        hw ▸ hs.uextend (failIfMissing_eq_ok.mp hd) ha) hmem
    · rw [if_neg hg] at hok ⊢
      obtain ⟨hkeep, hnone⟩ := checkUnmatched_ok hok
      rw [hkeep, hnone rd (by simp [Inst.defs])]
      exact fun _ h => by cases h
  case MovWide op rd imm size =>
    cases op with
    | MovZ =>
      obtain ⟨hfits, rfl⟩ := hw
      rw [check_movZ] at hok ⊢
      rw [← chunk_eq_movz hfits] at hmem ⊢
      exact checkConstant_sound hs hok hmem
    | MovN =>
      subst hw
      rw [check_movN] at hok ⊢
      exact checkConstant_sound hs hok hmem
  case MovK rd rn imm size =>
    obtain ⟨-, rfl⟩ := hw
    cases hin : getFactOrDefault ctx vcode rn with
    | error e => simp only [check, hin, reduceCtorEq] at hok
    | ok input =>
      cases hc : ctx.asConst input 64 with
      | some c =>
        have hc' : regs rn = c := hs.asConst hc (getFactOrDefault_sound hs hget hin)
        rw [check_movK_of_asConst ctx vcode rd imm size hin hc] at hok ⊢
        simp only [Inst.MovKIsOr] at hmovk
        rw [hmovk, hc'] at hmem ⊢
        exact checkConstant_sound hs hok hmem
      | none =>
        simp only [check, hin, hc] at hok ⊢
        exact checkOutput_sound hs hok
          (fun d hd => by cases hd; exact hs.maxRangeForWidth 64 _ (BitVec.isLt _)) hmem

theorem check_step_sound {defined : Reg → Prop} {regs regs' : Regs} {inst : Inst}
    (hf : FactsHoldOn holds vcode regs defined) (huses : ∀ r ∈ inst.uses, defined r)
    (hstep : Step regs inst regs') (ht : Trusted ctx holds vcode regs inst regs')
    (hok : (check ctx vcode inst).1 = .ok ()) :
    FactsHoldOn holds (check ctx vcode inst).2 regs' fun r => defined r ∨ r ∈ inst.defs := by
  cases hstep with
  | write hd hw =>
    have hdest := check_dest_sound hs (fun r hr f => hf r f (huses r hr)) hd hw ht.1
      (fun F hF hm => by simpa using ht.2.1 _ F hd hF hm) (by simpa using ht.2.2.1 _ hd) hok
    simpa only [Inst.defs_eq_of_dest hd, List.mem_singleton] using
      factsHoldOn_update hf (hd ▸ check_installs ctx vcode inst) hdest
  | writeDefs vals hw =>
    cases inst <;> simp only [Inst.WritesDefs] at hw
    case Args defs =>
      exact factsHoldOn_writeDefs hf fun r hr f h => by simpa [hr] using ht.2.2.2 r hr f h
    case LoadPair => simp [check, checkLoadPair] at hok
    case Other defs uses =>
      obtain ⟨hkeep, hnone⟩ := checkUnmatched_ok hok
      rw [show check ctx vcode (.Other defs uses) = checkUnmatched vcode _ from rfl, hkeep]
      exact factsHoldOn_writeDefs hf fun r hr f h => by simp [hnone r hr] at h
  | store hst =>
    cases inst <;> simp only [Inst.IsStore] at hst <;>
      exact fun r f hr => hf r f (by simpa [Inst.defs] using hr)

end Contract

/-- A run from `regs` to `regs'` in which each instruction's operands are defined, checked
with the store that `check` builds from `vcode` along it, and trusting at each step only what
`Trusted` names. -/
inductive TrustedRun (ctx : FactContext Fact) (holds : Fact → BitVec 64 → Prop) :
    (Reg → Prop) → VCode Fact → Regs → List Inst → Regs → Prop
  | nil (defined : Reg → Prop) (vcode : VCode Fact) (regs : Regs) :
    TrustedRun ctx holds defined vcode regs [] regs
  | cons {defined : Reg → Prop} {vcode : VCode Fact} {regs regs₁ regs₂ : Regs} {inst : Inst}
    {insts : List Inst} : (∀ r ∈ inst.uses, defined r) → Step regs inst regs₁ →
    Trusted ctx holds vcode regs inst regs₁ →
    TrustedRun ctx holds (fun r => defined r ∨ r ∈ inst.defs) (check ctx vcode inst).2
      regs₁ insts regs₂ →
    TrustedRun ctx holds defined vcode regs (inst :: insts) regs₂

/-- The run lemma, at every point of an accepted function: along a trusted run of a prefix
of a function that `check` accepts, the facts of the registers defined before the run or
along it stay true. -/
theorem TrustedRun.factsHoldOn {ctx : FactContext Fact} {holds : Fact → BitVec 64 → Prop}
    (hs : ctx.Sound holds) {defined : Reg → Prop} {vcode : VCode Fact} {regs regs' : Regs}
    {insts : List Inst} (hrun : TrustedRun ctx holds defined vcode regs insts regs')
    (hf : FactsHoldOn holds vcode regs defined) {rest : List Inst}
    (hok : (checkInsts ctx vcode (insts ++ rest)).1 = .ok ()) :
    FactsHoldOn holds (checkInsts ctx vcode insts).2 regs'
      fun r => defined r ∨ ∃ inst ∈ insts, r ∈ inst.defs := by
  induction hrun with
  | nil => exact fun r f hr => hf r f (by simpa using hr)
  | cons huses hstep ht _ ih =>
    obtain ⟨hi, hrest⟩ := checkInsts_cons_ok ctx hok
    rw [checkInsts_cons_of_ok ctx hi]
    exact fun r f hr => ih (check_step_sound hs hf huses hstep ht hi) hrest r f
      (by simpa [or_assoc] using hr)

/-- Soundness over runs: over a fact context that meets its contract, a run that `check`
accepts, instruction after instruction, ends with the facts of every register defined
before it or along it true of the registers. -/
theorem checkInsts_sound {ctx : FactContext Fact} {holds : Fact → BitVec 64 → Prop}
    (hs : ctx.Sound holds) {defined : Reg → Prop} {vcode : VCode Fact} {regs regs' : Regs}
    {insts : List Inst} (hrun : TrustedRun ctx holds defined vcode regs insts regs')
    (hf : FactsHoldOn holds vcode regs defined) (hok : (checkInsts ctx vcode insts).1 = .ok ()) :
    FactsHoldOn holds (checkInsts ctx vcode insts).2 regs'
      fun r => defined r ∨ ∃ inst ∈ insts, r ∈ inst.defs := by
  have hall : (checkInsts ctx vcode (insts ++ [])).1 = .ok () := by rwa [List.append_nil]
  exact hrun.factsHoldOn hs hf hall

open RangeFact

-- `movz x0, #5; add x1, x0, x0`.
def movzAdd : List Inst :=
  [.MovWide .MovZ ⟨0, .Int⟩ ⟨5, 0, by decide, by decide⟩ .Size64,
   .AluRRR .Add .Size64 ⟨1, .Int⟩ ⟨0, .Int⟩ ⟨0, .Int⟩]

def movzAddVCode : VCode RangeFact :=
  ⟨fun r => if r = ⟨1, .Int⟩ then some (range 64 10 10) else none, fun _ => .I64⟩

theorem checkInsts_sound_movzAdd :
    (rangeContext fun _ => 0).Sound (holds fun _ => 0) ∧
    TrustedRun (rangeContext fun _ => 0) (holds fun _ => 0) (fun _ => False) movzAddVCode
      (fun _ => 0) movzAdd
      (Function.update (Function.update (fun _ => 0) ⟨0, .Int⟩ 5) ⟨1, .Int⟩ 10) ∧
    FactsHoldOn (holds fun _ => 0) movzAddVCode (fun _ => 0) (fun _ => False) ∧
    (checkInsts (rangeContext fun _ => 0) movzAddVCode movzAdd).1 = .ok () ∧
    FactsHoldOn (holds fun _ => 0) (checkInsts (rangeContext fun _ => 0) movzAddVCode movzAdd).2
      (Function.update (Function.update (fun _ => 0) ⟨0, .Int⟩ 5) ⟨1, .Int⟩ 10)
      (fun r => False ∨ ∃ inst ∈ movzAdd, r ∈ inst.defs) := by
  have hs := rangeContext_sound (fun _ => 0) (fun _ => 0)
  have hrun : TrustedRun (rangeContext fun _ => 0) (holds fun _ => 0) (fun _ => False)
      movzAddVCode (fun _ => 0) movzAdd
      (Function.update (Function.update (fun _ => 0) ⟨0, .Int⟩ 5) ⟨1, .Int⟩ 10) :=
    .cons (fun _ h => nomatch h) (.write (v := 5) rfl ⟨by decide, by decide⟩)
      ⟨trivial, fun _ _ hd hf _ => by cases hd; simp [movzAddVCode] at hf, fun _ _ => trivial,
        trivial⟩
      (.cons (fun r h => .inr (by simp only [Inst.uses, List.mem_cons, List.not_mem_nil,
          or_false, or_self] at h; subst h; exact List.mem_singleton_self _))
        (.write (v := 10) rfl (by simp only [Inst.Writes, if_true]; decide))
        ⟨trivial, fun _ _ hd hf hm => (by cases hd; cases hf; cases hm), fun _ _ => trivial,
          trivial⟩
        (.nil _ _ _))
  have hf : FactsHoldOn (holds fun _ => 0) movzAddVCode (fun _ => 0) (fun _ => False) :=
    fun _ _ h => h.elim
  exact ⟨hs, hrun, hf, rfl, checkInsts_sound hs hrun hf rfl⟩

/-- `movnX0; movkX1` from any registers: over a sound context, `check` accepts both steps,
and the fact it leaves on `x1` is false of the value `MOVK` writes there. The `MOVK` is not
an OR of its input and its chunk, so the run is not one that `Trusted` allows. -/
theorem checkInsts_movn_movk_unsound (regs : Regs) :
    (rangeContext fun _ => 0).Sound (holds fun _ => 0) ∧
    Step regs movnX0 (Function.update regs ⟨0, .Int⟩ 0xFFFFFFFFFFFFFFFF) ∧
    Step (Function.update regs ⟨0, .Int⟩ 0xFFFFFFFFFFFFFFFF) movkX1
      (Function.update (Function.update regs ⟨0, .Int⟩ 0xFFFFFFFFFFFFFFFF) ⟨1, .Int⟩
        0xFFFFFFFFFFFF1234) ∧
    ¬ movkX1.MovKIsOr (Function.update regs ⟨0, .Int⟩ 0xFFFFFFFFFFFFFFFF) ∧
    (checkInsts (rangeContext fun _ => 0) ⟨fun _ => none, fun _ => .I64⟩ [movnX0, movkX1]).1 =
      .ok () ∧
    ¬ FactsHoldOn (holds fun _ => 0)
      (checkInsts (rangeContext fun _ => 0) ⟨fun _ => none, fun _ => .I64⟩ [movnX0, movkX1]).2
      (Function.update (Function.update regs ⟨0, .Int⟩ 0xFFFFFFFFFFFFFFFF) ⟨1, .Int⟩
        0xFFFFFFFFFFFF1234)
      (fun r => False ∨ ∃ inst ∈ [movnX0, movkX1], inst.dest = some r) := by
  refine ⟨rangeContext_sound _ _, .write rfl (by simp only [movnX0, Inst.Writes]; decide),
    .write rfl ?_, ?_, rfl, fun h => ?_⟩
  · simp only [movkX1, Inst.Writes, Function.update_same]
    decide
  · simp only [movkX1, Inst.MovKIsOr, Function.update_same]
    decide
  · have := h ⟨1, .Int⟩ _ (.inr ⟨movkX1, by simp, rfl⟩) rfl
    simp only [Function.update_same] at this
    exact absurd this (by simp only [rangeContext, holds]; decide)

end Wasmfxtime.Pcc
