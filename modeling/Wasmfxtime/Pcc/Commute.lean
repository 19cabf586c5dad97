import Wasmfxtime.Pcc.Frame
import Wasmfxtime.Pcc.Ranges

/-! # `check` reads and writes only its own operands

A fact given to a register that an instruction neither defines nor uses changes nothing
in how the instruction is checked. So two instructions that share no defined register
can be checked in either order.
-/

namespace Wasmfxtime.Pcc

variable {Fact : Type} (ctx : FactContext Fact)

section Locality

variable {ctx} {vcode : VCode Fact} {r : Reg} {g : Fact}

theorem getFactOrDefault_setVregFact {reg : Reg} (h : r ≠ reg) :
    getFactOrDefault ctx (vcode.setVregFact r g) reg = getFactOrDefault ctx vcode reg := by
  simp only [getFactOrDefault, vcode.vregFact_setVregFact_of_ne g (Ne.symm h),
    VCode.setVregFact_vregType]

theorem hasFact_setVregFact {reg : Reg} (h : r ≠ reg) :
    hasFact (vcode.setVregFact r g) reg = hasFact vcode reg := by
  simp only [hasFact, vcode.vregFact_setVregFact_of_ne g (Ne.symm h)]

theorem any_vregFact_setVregFact (vcode : VCode Fact) {l : List Reg} (h : r ∉ l)
    (p : Option Fact → Bool) :
    (l.any fun r' => p ((vcode.setVregFact r g).vregFact r')) =
      l.any fun r' => p (vcode.vregFact r') := by
  induction l with
  | nil => rfl
  | cons a l ih =>
    rw [List.mem_cons, not_or] at h
    simp only [List.any_cons, ih h.2, vcode.vregFact_setVregFact_of_ne g (Ne.symm h.1)]

theorem instDefinesFacts_setVregFact {inst : Inst} (h : r ∉ inst.defs) :
    (vcode.setVregFact r g).instDefinesFacts inst = vcode.instDefinesFacts inst :=
  any_vregFact_setVregFact vcode h Option.isSome

theorem amodeFact_setVregFact {addr : AMode} (h : r ∉ addr.regs) (ty : Ty) :
    amodeFact ctx (vcode.setVregFact r g) addr ty = amodeFact ctx vcode addr ty := by
  cases addr <;> simp_all [amodeFact, AMode.regs, getFactOrDefault_setVregFact]

theorem checkAddr_setVregFact {addr : AMode} (h : r ∉ addr.regs) (flags : MemFlags) (ty : Ty)
    (op : LoadOrStore Fact) :
    checkAddr ctx flags addr (vcode.setVregFact r g) ty op =
      checkAddr ctx flags addr vcode ty op := by
  simp only [checkAddr, amodeFact_setVregFact h]

theorem bind_vregFact_setVregFact {rd : Reg} {o : Option Reg} (ho : o = none ∨ o = some rd)
    (h : r ≠ rd) : o.bind (vcode.setVregFact r g).vregFact = o.bind vcode.vregFact := by
  rcases ho with rfl | rfl
  · rfl
  · exact vcode.vregFact_setVregFact_of_ne g (Ne.symm h)

theorem checkOutput_setVregFact {out : Reg} {ins : List Reg} {f : VCode Fact → PccResult Fact}
    (hout : r ≠ out) (hins : r ∉ ins) (hf : f (vcode.setVregFact r g) = f vcode) :
    checkOutput ctx (vcode.setVregFact r g) out ins f =
      ((checkOutput ctx vcode out ins f).1,
        (checkOutput ctx vcode out ins f).2.setVregFact r g) := by
  have hany := any_vregFact_setVregFact vcode (g := g) hins
    fun o => (o.map ctx.propagates).getD false
  simp only [checkOutput, vcode.vregFact_setVregFact_of_ne g (Ne.symm hout), hf] at hany ⊢
  rw [hany]
  split
  · rfl
  · split
    · split
      · rw [VCode.setVregFact_comm _ _ _ hout]
      · rfl
    · rfl

theorem checkUnop_setVregFact {out ra : Reg} {f : Fact → PccResult Fact}
    (hout : r ≠ out) (hra : r ≠ ra) :
    checkUnop ctx (vcode.setVregFact r g) out ra f =
      ((checkUnop ctx vcode out ra f).1, (checkUnop ctx vcode out ra f).2.setVregFact r g) :=
  checkOutput_setVregFact hout (by simpa using hra) (by rw [getFactOrDefault_setVregFact hra])

theorem checkBinop_setVregFact {out ra rb : Reg} {f : Fact → Fact → PccResult Fact}
    (hout : r ≠ out) (hra : r ≠ ra) (hrb : r ≠ rb) :
    checkBinop ctx (vcode.setVregFact r g) out ra rb f =
      ((checkBinop ctx vcode out ra rb f).1,
        (checkBinop ctx vcode out ra rb f).2.setVregFact r g) :=
  checkOutput_setVregFact hout (by simp [hra, hrb])
    (by simp only [getFactOrDefault_setVregFact hra, getFactOrDefault_setVregFact hrb])

theorem checkAluMaxRange_setVregFact {rd : Reg} (hrd : r ≠ rd) (size : OperandSize) :
    checkAluMaxRange ctx (vcode.setVregFact r g) rd size =
      ((checkAluMaxRange ctx vcode rd size).1,
        (checkAluMaxRange ctx vcode rd size).2.setVregFact r g) :=
  checkOutput_setVregFact hrd (List.not_mem_nil r) rfl

theorem checkConstant_setVregFact {out : Reg} (hout : r ≠ out) (w : Nat) (c : BitVec 64) :
    checkConstant ctx (vcode.setVregFact r g) out w c =
      ((checkConstant ctx vcode out w c).1,
        (checkConstant ctx vcode out w c).2.setVregFact r g) := by
  simp only [checkConstant, vcode.vregFact_setVregFact_of_ne g (Ne.symm hout)]
  split
  · rfl
  · rw [VCode.setVregFact_comm _ _ _ hout]

theorem checkUnmatched_setVregFact {inst : Inst} (h : r ∉ inst.defs) :
    checkUnmatched (vcode.setVregFact r g) inst =
      ((checkUnmatched vcode inst).1, (checkUnmatched vcode inst).2.setVregFact r g) := by
  simp only [checkUnmatched, instDefinesFacts_setVregFact h]
  split <;> rfl

/-- `check` neither reads nor writes the fact of a register that the instruction neither
defines nor uses. -/
theorem check_setVregFact {inst : Inst} (h : r ∉ inst.regs) :
    check ctx (vcode.setVregFact r g) inst =
      ((check ctx vcode inst).1, (check ctx vcode inst).2.setVregFact r g) := by
  cases inst <;> simp only [Inst.regs, Inst.defs, Inst.uses, List.mem_append, List.mem_cons,
    List.not_mem_nil, or_false, not_or, List.nil_append, List.append_nil] at h
  case Args | LoadPair | StorePair => rfl
  case Load op rd mem flags =>
    simp only [check, checkLoad, checkAddr_setVregFact h.2,
      bind_vregFact_setVregFact (op.resultReg_cases rd) h.1]
  case Store op rd mem flags =>
    simp only [check, checkStore, checkAddr_setVregFact h.2,
      bind_vregFact_setVregFact (op.storedReg_cases rd) h.1]
  case VecLoadReplicate | LoadAcquire =>
    simp only [check, checkLoadAddr, getFactOrDefault_setVregFact h.2]
  case StoreRelease =>
    simp only [check, checkStoreAddr, getFactOrDefault_setVregFact h.2]
  case AluRRR | AluRRRShift | AluRRRExtend =>
    obtain ⟨hrd, hrn, hrm⟩ := h
    simp only [check, hasFact_setVregFact hrn, hasFact_setVregFact hrm]
    split
    · exact checkBinop_setVregFact hrd hrn hrm
    · exact checkAluMaxRange_setVregFact hrd _
  case AluRRImm12 | AluRRImmShift =>
    obtain ⟨hrd, hrn⟩ := h
    simp only [check, hasFact_setVregFact hrn]
    split
    · exact checkUnop_setVregFact hrd hrn
    · exact checkAluMaxRange_setVregFact hrd _
  case AluRRImmLogic => exact checkAluMaxRange_setVregFact h.1 _
  case Extend rd rn signed fromBits toBits =>
    obtain ⟨hrd, hrn⟩ := h
    simp only [check, hasFact_setVregFact hrn]
    split
    · exact checkUnop_setVregFact hrd hrn
    · exact checkUnmatched_setVregFact (by simpa [Inst.defs] using hrd)
  case MovWide op rd imm size => cases op <;> exact checkConstant_setVregFact h _ _
  case MovK rd rn imm size =>
    obtain ⟨hrd, hrn⟩ := h
    simp only [check, getFactOrDefault_setVregFact hrn]
    split
    · rfl
    · split
      · exact checkConstant_setVregFact hrd _ _
      · exact checkOutput_setVregFact hrd (List.not_mem_nil r) rfl
  case Other defs uses => exact checkUnmatched_setVregFact h.1

end Locality

/-- Two instructions, neither defining a register that the other defines or uses, give the
same verdicts and the same store in either order. -/
theorem check_independent_commute (i j : Inst) (hij : ∀ r ∈ i.defs, r ∉ j.regs)
    (hji : ∀ r ∈ j.defs, r ∉ i.regs) (vcode : VCode Fact) :
    (check ctx (check ctx vcode j).2 i).1 = (check ctx vcode i).1 ∧
    (check ctx (check ctx vcode i).2 j).1 = (check ctx vcode j).1 ∧
    (check ctx (check ctx vcode i).2 j).2 = (check ctx (check ctx vcode j).2 i).2 := by
  rcases check_installs ctx vcode i with hi | ⟨di, fi, hdi, -, hi⟩ <;>
    rcases check_installs ctx vcode j with hj | ⟨dj, fj, hdj, -, hj⟩
  · simp only [hi, hj, and_self]
  · have hj' := hji dj (Inst.dest_mem_defs hdj)
    simp only [hi, hj, check_setVregFact hj', and_self]
  · have hi' := hij di (Inst.dest_mem_defs hdi)
    simp only [hi, hj, check_setVregFact hi', and_self]
  · have hi' := hij di (Inst.dest_mem_defs hdi)
    have hj' := hji dj (Inst.dest_mem_defs hdj)
    have hne : di ≠ dj := fun h =>
      hi' (by rw [h]; exact List.mem_append_left _ (Inst.dest_mem_defs hdj))
    simp only [hi, hj, check_setVregFact hi', check_setVregFact hj', true_and]
    exact VCode.setVregFact_comm _ _ _ hne.symm

theorem check_independent_commute_add_movz :
    (∀ r ∈ (Inst.AluRRR .Add .Size64 ⟨2, .Int⟩ ⟨0, .Int⟩ ⟨1, .Int⟩).defs,
      r ∉ (Inst.MovWide .MovZ ⟨3, .Int⟩ ⟨5, 0, by decide, by decide⟩ .Size64).regs) ∧
    (∀ r ∈ (Inst.MovWide .MovZ ⟨3, .Int⟩ ⟨5, 0, by decide, by decide⟩ .Size64).defs,
      r ∉ (Inst.AluRRR .Add .Size64 ⟨2, .Int⟩ ⟨0, .Int⟩ ⟨1, .Int⟩).regs) ∧
    let ctx := rangeContext fun _ => 0
    let i := Inst.AluRRR .Add .Size64 ⟨2, .Int⟩ ⟨0, .Int⟩ ⟨1, .Int⟩
    let j := Inst.MovWide .MovZ ⟨3, .Int⟩ ⟨5, 0, by decide, by decide⟩ .Size64
    let vcode : VCode RangeFact := ⟨fun _ => none, fun _ => .I64⟩
    (check ctx (check ctx vcode j).2 i).1 = (check ctx vcode i).1 ∧
    (check ctx (check ctx vcode i).2 j).1 = (check ctx vcode j).1 ∧
    (check ctx (check ctx vcode i).2 j).2 = (check ctx (check ctx vcode j).2 i).2 :=
  ⟨by decide, by decide, check_independent_commute _ _ _ (by decide) (by decide) _⟩

end Wasmfxtime.Pcc
