import Wasmfxtime.Pcc.Check

/-! # What `check` does to the fact store

A call either leaves the store alone or succeeds after giving its destination its first
fact. Every later result about the store comes from `check_installs`.
-/

namespace Wasmfxtime.Pcc

variable {Fact : Type} (ctx : FactContext Fact)

/-- What one call can do to the store: keep it, or succeed after giving `dest` a fact where
it had none. -/
def Installs (vcode : VCode Fact) (dest : Option Reg) (res : PccResult Unit × VCode Fact) :
    Prop :=
  res.2 = vcode ∨ ∃ rd fact, dest = some rd ∧ vcode.vregFact rd = none ∧
    res = (.ok (), vcode.setVregFact rd fact)

/-- The store effect as the claim reads: a failure keeps the store, and only `dest` may
change, from no fact to some fact. -/
def FrameStep (vcode : VCode Fact) (dest : Option Reg) (res : PccResult Unit × VCode Fact) :
    Prop :=
  res.2.vregType = vcode.vregType ∧ (∀ e, res.1 = .error e → res.2 = vcode) ∧
    ∀ r, res.2.vregFact r = vcode.vregFact r ∨
      (dest = some r ∧ vcode.vregFact r = none ∧ (res.2.vregFact r).isSome)

section Installs

variable {ctx} {vcode : VCode Fact} {dest : Option Reg} {res : PccResult Unit × VCode Fact}

theorem Installs.frameStep (h : Installs vcode dest res) : FrameStep vcode dest res := by
  rcases h with h | ⟨rd, fact, rfl, hnone, rfl⟩
  · exact ⟨by rw [h], fun _ _ => h, fun _ => .inl (by rw [h])⟩
  · refine ⟨rfl, fun _ h => by simp at h, fun r => ?_⟩
    by_cases hr : r = rd
    · subst hr; exact .inr ⟨rfl, hnone, by simp⟩
    · exact .inl (vcode.vregFact_setVregFact_of_ne fact hr)

theorem Installs.keeps (h : Installs vcode dest res) {r : Reg} {f : Fact}
    (hf : vcode.vregFact r = some f) : res.2.vregFact r = some f := by
  rcases (Installs.frameStep h).2.2 r with h | ⟨-, h, -⟩
  · rw [h, hf]
  · simp [h] at hf

theorem Installs.of_error (h : Installs vcode dest res) {e : PccError}
    (he : res.1 = .error e) : res.2 = vcode :=
  (Installs.frameStep h).2.1 e he

end Installs

theorem checkOutput_installs (vcode : VCode Fact) (out : Reg) (ins : List Reg)
    (f : VCode Fact → PccResult Fact) :
    Installs vcode (some out) (checkOutput ctx vcode out ins f) := by
  unfold checkOutput
  split
  · exact .inl rfl
  · split
    · split
      · exact .inr ⟨out, _, rfl, ‹_›, rfl⟩
      · exact .inl rfl
    · exact .inl rfl

theorem checkConstant_installs (vcode : VCode Fact) (out : Reg) (w : Nat) (c : BitVec 64) :
    Installs vcode (some out) (checkConstant ctx vcode out w c) := by
  unfold checkConstant
  split
  · exact .inl rfl
  · exact .inr ⟨out, _, rfl, ‹_›, rfl⟩

theorem checkUnmatched_installs (vcode : VCode Fact) (inst : Inst) (dest : Option Reg) :
    Installs vcode dest (checkUnmatched vcode inst) := by
  unfold checkUnmatched
  split <;> exact .inl rfl

/-- The inversion lemma for `check`. -/
theorem check_installs (vcode : VCode Fact) (inst : Inst) :
    Installs vcode inst.dest (check ctx vcode inst) := by
  cases inst with
  | Args | Load | LoadPair | VecLoadReplicate | LoadAcquire | Store | StorePair
  | StoreRelease => exact .inl rfl
  | AluRRR | AluRRImm12 | AluRRRShift | AluRRRExtend | AluRRImmShift =>
    simp only [check]
    split <;> apply checkOutput_installs
  | AluRRImmLogic => apply checkOutput_installs
  | Extend =>
    simp only [check]
    split
    · apply checkOutput_installs
    · apply checkUnmatched_installs
  | MovWide op => cases op <;> apply checkConstant_installs
  | MovK rd rn imm size =>
    simp only [check]
    split
    · exact .inl rfl
    · split
      · apply checkConstant_installs
      · apply checkOutput_installs
  | Other => apply checkUnmatched_installs

/-! ## Runs -/

section Prefix

variable {vcode : VCode Fact}

theorem checkInsts_cons_of_ok {inst : Inst} (h : (check ctx vcode inst).1 = .ok ())
    (insts : List Inst) :
    checkInsts ctx vcode (inst :: insts) = checkInsts ctx (check ctx vcode inst).2 insts := by
  rcases hc : check ctx vcode inst with ⟨_ | _, vc⟩
  · simp only [hc, reduceCtorEq] at h
  · simp only [checkInsts, hc]

theorem checkInsts_cons_of_error {inst : Inst} {e : PccError}
    (h : (check ctx vcode inst).1 = .error e) (insts : List Inst) :
    checkInsts ctx vcode (inst :: insts) = (.error e, (check ctx vcode inst).2) := by
  rcases hc : check ctx vcode inst with ⟨_ | _, vc⟩
  · simp only [hc, Except.error.injEq] at h
    simp only [checkInsts, hc, h]
  · simp only [hc, reduceCtorEq] at h

theorem checkInsts_cons_ok {inst : Inst} {insts : List Inst}
    (h : (checkInsts ctx vcode (inst :: insts)).1 = .ok ()) :
    (check ctx vcode inst).1 = .ok () ∧
      (checkInsts ctx (check ctx vcode inst).2 insts).1 = .ok () := by
  rcases hc : check ctx vcode inst with ⟨_ | _, vc⟩
  · simp only [checkInsts, hc, reduceCtorEq] at h
  · simp only [checkInsts, hc] at h
    exact ⟨rfl, h⟩

/-- An accepted function's prefix is accepted, and so is the rest from the store it leaves. -/
theorem checkInsts_append_ok {pre rest : List Inst}
    (h : (checkInsts ctx vcode (pre ++ rest)).1 = .ok ()) :
    (checkInsts ctx vcode pre).1 = .ok () ∧
      (checkInsts ctx (checkInsts ctx vcode pre).2 rest).1 = .ok () := by
  induction pre generalizing vcode with
  | nil => exact ⟨rfl, h⟩
  | cons inst pre ih =>
    obtain ⟨hi, hrest⟩ := checkInsts_cons_ok ctx h
    rw [checkInsts_cons_of_ok ctx hi]
    exact ih hrest

end Prefix

theorem checkInsts_append_of_ok {vcode vcode₁ : VCode Fact} {pre : List Inst}
    (h : checkInsts ctx vcode pre = (.ok (), vcode₁)) (rest : List Inst) :
    checkInsts ctx vcode (pre ++ rest) = checkInsts ctx vcode₁ rest := by
  induction pre generalizing vcode with
  | nil => cases h; rfl
  | cons inst pre ih =>
    simp only [checkInsts, List.cons_append] at h ⊢
    split at h
    · exact ih h
    · cases h

theorem checkInsts_keeps_fact (vcode : VCode Fact) (insts : List Inst) {r : Reg} {f : Fact}
    (h : vcode.vregFact r = some f) : (checkInsts ctx vcode insts).2.vregFact r = some f := by
  induction insts generalizing vcode with
  | nil => exact h
  | cons inst insts ih =>
    have hstep := (check_installs ctx vcode inst).keeps h
    simp only [checkInsts]
    split
    · next heq => rw [heq] at hstep; exact ih _ hstep
    · next heq => rw [heq] at hstep; exact hstep

/-- `check` changes the store only by giving the instruction's destination its first
fact; along a run, a fact once present stays, and the failing instruction leaves the
store as the instructions before it left it. -/
theorem check_store_frame :
    (∀ (vcode : VCode Fact) (inst : Inst), FrameStep vcode inst.dest (check ctx vcode inst)) ∧
    (∀ (vcode : VCode Fact) (insts : List Inst) (r : Reg) (f : Fact),
      vcode.vregFact r = some f → (checkInsts ctx vcode insts).2.vregFact r = some f) ∧
    (∀ (vcode vcode₁ : VCode Fact) (pre post : List Inst) (inst : Inst) (e : PccError),
      checkInsts ctx vcode pre = (.ok (), vcode₁) → (check ctx vcode₁ inst).1 = .error e →
      checkInsts ctx vcode (pre ++ inst :: post) = (.error e, vcode₁)) := by
  refine ⟨fun vcode inst => (check_installs ctx vcode inst).frameStep,
    fun vcode insts _ _ h => checkInsts_keeps_fact ctx vcode insts h, ?_⟩
  intro vcode vcode₁ pre post inst e hpre he
  rw [checkInsts_append_of_ok ctx hpre]
  have hkeep := (check_installs ctx vcode₁ inst).of_error he
  simp only [checkInsts]
  split
  · next heq => rw [heq] at he; cases he
  · next heq => rw [heq] at he hkeep; cases he; rw [← hkeep]

end Wasmfxtime.Pcc
