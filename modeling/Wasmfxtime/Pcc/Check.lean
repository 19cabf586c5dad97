import Wasmfxtime.Pcc.Fact

/-! # `check`: the AArch64 fact checker

One definition per function of `isa/aarch64/pcc.rs`, under its name. A function that
takes `&mut VCode` returns its verdict together with the store it leaves behind.
-/

namespace Wasmfxtime.Pcc

variable {Fact : Type} (ctx : FactContext Fact)

def getFactOrDefault (vcode : VCode Fact) (reg : Reg) : PccResult Fact :=
  match vcode.vregFact reg <|> ctx.inferFromType (vcode.vregType reg) with
  | some fact => .ok fact
  | none => .error .MissingFact

def hasFact (vcode : VCode Fact) (reg : Reg) : Bool := (vcode.vregFact reg).isSome

def failIfMissing (fact : Option Fact) : PccResult Fact :=
  match fact with
  | some fact => .ok fact
  | none => .error .UnsupportedFact

def checkSubsumes (subsumer subsumee : Fact) : PccResult Unit :=
  -- For now, all `mem` facts validate.
  if ctx.isMem subsumee then .ok ()
  else if ctx.subsumes subsumer subsumee then .ok ()
  else .error .UnsupportedFact

def extendFact (value : Fact) : ExtendOp → Option Fact
  | .UXTB => ctx.uextend value 8 64
  | .UXTH => ctx.uextend value 16 64
  | .UXTW => ctx.uextend value 32 64
  | .UXTX => some value
  | .SXTB => ctx.sextend value 8 64
  | .SXTH => ctx.sextend value 16 64
  | .SXTW => ctx.sextend value 32 64
  | .SXTX => none

/-- A declared fact on `out` must be implied by the derived one. Otherwise a fact is
derived only when an input's fact propagates, and a failed derivation is ignored. -/
def checkOutput (vcode : VCode Fact) (out : Reg) (ins : List Reg)
    (f : VCode Fact → PccResult Fact) : PccResult Unit × VCode Fact :=
  match vcode.vregFact out with
  | some fact => ((f vcode).bind fun result => checkSubsumes ctx result fact, vcode)
  | none =>
    if ins.any fun r => ((vcode.vregFact r).map ctx.propagates).getD false then
      match f vcode with
      | .ok fact => (.ok (), vcode.setVregFact out fact)
      | .error _ => (.ok (), vcode)
    else (.ok (), vcode)

def checkUnop (vcode : VCode Fact) (out ra : Reg) (f : Fact → PccResult Fact) :
    PccResult Unit × VCode Fact :=
  checkOutput ctx vcode out [ra] fun vcode => (getFactOrDefault ctx vcode ra).bind f

def checkBinop (vcode : VCode Fact) (out ra rb : Reg) (f : Fact → Fact → PccResult Fact) :
    PccResult Unit × VCode Fact :=
  checkOutput ctx vcode out [ra, rb] fun vcode => do
    let ra ← getFactOrDefault ctx vcode ra
    let rb ← getFactOrDefault ctx vcode rb
    f ra rb

def checkConstant (vcode : VCode Fact) (out : Reg) (bitWidth : Nat) (value : BitVec 64) :
    PccResult Unit × VCode Fact :=
  let result := ctx.constant bitWidth value
  match vcode.vregFact out with
  | some fact => (checkSubsumes ctx result fact, vcode)
  | none => (.ok (), vcode.setVregFact out result)

/-! ## Addresses -/

/-- A load, whose result may carry a fact to validate, or a store of a value that may
carry one. -/
inductive LoadOrStore (Fact : Type)
  | Load (resultFact : Option Fact)
  | Store (storedFact : Option Fact)

/-- The closure `check` inside `check_addr`. -/
def checkAccess (op : LoadOrStore Fact) (addr : Fact) (ty : Ty) : PccResult Unit :=
  match op with
  | .Load resultFact => do
    let loadedFact ← ctx.load addr ty
    if ctx.subsumesFactOptionals loadedFact resultFact then .ok () else .error .UnsupportedFact
  | .Store storedFact => ctx.store addr ty storedFact

/-- The match of `check_addr`: the address fact and the type that each arm hands to the
`check` closure, or `none` for the modes it accepts outright. In the two scaled modes the
mode's own `ty` shadows the access type, as in the source. -/
def amodeFact (vcode : VCode Fact) (addr : AMode) (ty : Ty) : PccResult (Option (Fact × Ty)) :=
  match addr with
  | .RegReg rn rm => do
    let rn ← getFactOrDefault ctx vcode rn
    let rm ← getFactOrDefault ctx vcode rm
    let sum ← failIfMissing (ctx.add rn rm 64)
    pure (some (sum, ty))
  | .RegScaled rn rm ty => do
    let rn ← getFactOrDefault ctx vcode rn
    let rm ← getFactOrDefault ctx vcode rm
    let rmScaled ← failIfMissing (ctx.scale rm 64 ty.bytes)
    let sum ← failIfMissing (ctx.add rn rmScaled 64)
    pure (some (sum, ty))
  | .RegScaledExtended rn rm ty extendop => do
    let rn ← getFactOrDefault ctx vcode rn
    let rm ← getFactOrDefault ctx vcode rm
    let rmExtended ← failIfMissing (extendFact ctx rm extendop)
    let rmScaled ← failIfMissing (ctx.scale rmExtended 64 ty.bytes)
    let sum ← failIfMissing (ctx.add rn rmScaled 64)
    pure (some (sum, ty))
  | .RegExtended rn rm extendop => do
    let rn ← getFactOrDefault ctx vcode rn
    let rm ← getFactOrDefault ctx vcode rm
    let rmExtended ← failIfMissing (extendFact ctx rm extendop)
    let sum ← failIfMissing (ctx.add rn rmExtended 64)
    pure (some (sum, ty))
  | .Unscaled rn simm9 => do
    let rn ← getFactOrDefault ctx vcode rn
    let sum ← failIfMissing (ctx.offset rn 64 simm9.value)
    pure (some (sum, ty))
  | .UnsignedOffset rn uimm12 => do
    let rn ← getFactOrDefault ctx vcode rn
    -- `uimm12` holds the scaled offset, so it is not multiplied again.
    let sum ← failIfMissing (ctx.offset rn 64 uimm12.value)
    pure (some (sum, ty))
  | .Label | .Const => pure none
  | .RegOffset rn off _ => do
    let rn ← getFactOrDefault ctx vcode rn
    let sum ← failIfMissing (ctx.offset rn 64 off)
    pure (some (sum, ty))
  | .SPOffset | .FPOffset | .NominalSPOffset | .SPPostIndexed | .SPPreIndexed => pure none

def checkAddr (flags : MemFlags) (addr : AMode) (vcode : VCode Fact) (ty : Ty)
    (op : LoadOrStore Fact) : PccResult Unit :=
  if !flags.checked then .ok ()
  else amodeFact ctx vcode addr ty >>= fun
    | some (sum, ty) => checkAccess ctx op sum ty
    | none => .ok ()

def checkLoad (rd : Option Reg) (flags : MemFlags) (addr : AMode) (vcode : VCode Fact)
    (ty : Ty) : PccResult Unit :=
  checkAddr ctx flags addr vcode ty (.Load (rd.bind vcode.vregFact))

def checkStore (rd : Option Reg) (flags : MemFlags) (addr : AMode) (vcode : VCode Fact)
    (ty : Ty) : PccResult Unit :=
  checkAddr ctx flags addr vcode ty (.Store (rd.bind vcode.vregFact))

def checkLoadPair (_flags : MemFlags) (_addr : PairAMode) (_vcode : VCode Fact) (_size : Nat) :
    PccResult Unit :=
  .error .UnimplementedInst

def checkStorePair (_flags : MemFlags) (_addr : PairAMode) (_vcode : VCode Fact) (_size : Nat) :
    PccResult Unit :=
  .error .UnimplementedInst

def checkLoadAddr (flags : MemFlags) (reg : Reg) (vcode : VCode Fact) (ty : Ty) :
    PccResult Unit :=
  if !flags.checked then .ok ()
  else do
    let fact ← getFactOrDefault ctx vcode reg
    let _outputFact ← ctx.load fact ty
    pure ()

def checkStoreAddr (flags : MemFlags) (reg : Reg) (vcode : VCode Fact) (ty : Ty) :
    PccResult Unit :=
  if !flags.checked then .ok ()
  else do
    let fact ← getFactOrDefault ctx vcode reg
    let _outputFact ← ctx.store fact ty none
    pure ()

/-! ## One instruction -/

/-- The arm of `check` for every other ALU instruction: "Any ALU op can validate a
max-value fact where the value is the maximum for its bit-width." -/
def checkAluMaxRange (vcode : VCode Fact) (rd : Reg) (size : OperandSize) :
    PccResult Unit × VCode Fact :=
  checkOutput ctx vcode rd [] fun _ => .ok (ctx.maxRangeForWidth size.bits)

/-- The last two arms of `check`: an instruction it does not match fails when one of the
registers it defines carries a fact. -/
def checkUnmatched (vcode : VCode Fact) (inst : Inst) : PccResult Unit × VCode Fact :=
  if vcode.instDefinesFacts inst then (.error .UnsupportedFact, vcode) else (.ok (), vcode)

/-- The source's guarded arms fall through to the ALU arm or to the last arms; here each
constructor has one arm, and an `if` is the guard. -/
def check (vcode : VCode Fact) : Inst → PccResult Unit × VCode Fact
  -- The ABI code is trusted to pass the argument values through with their facts.
  | .Args _ => (.ok (), vcode)
  | .Load op rd mem flags => (checkLoad ctx (op.resultReg rd) flags mem vcode op.ty, vcode)
  | .LoadPair op _ _ mem flags =>
    (checkLoadPair flags mem vcode (if op = .FpuLoadP128 then 32 else 16), vcode)
  | .VecLoadReplicate _ rn size flags =>
    (checkLoadAddr ctx flags rn vcode size.laneSize.ty, vcode)
  | .LoadAcquire accessTy _ rn flags => (checkLoadAddr ctx flags rn vcode accessTy, vcode)
  | .Store op rd mem flags => (checkStore ctx (op.storedReg rd) flags mem vcode op.ty, vcode)
  | .StorePair op _ _ mem flags =>
    (checkStorePair flags mem vcode (if op = .FpuStoreP128 then 32 else 16), vcode)
  | .StoreRelease accessTy _ rn flags => (checkStoreAddr ctx flags rn vcode accessTy, vcode)
  | .AluRRR aluOp size rd rn rm =>
    if aluOp = .Add then
      checkBinop ctx vcode rd rn rm fun rn rm => failIfMissing (ctx.add rn rm size.bits)
    else checkAluMaxRange ctx vcode rd size
  | .AluRRImm12 aluOp size rd rn imm12 =>
    if aluOp = .Add then
      checkUnop ctx vcode rd rn fun rn =>
        let immFact := ctx.constant size.bits (BitVec.ofNat 64 imm12.value)
        failIfMissing (ctx.add rn immFact size.bits)
    else checkAluMaxRange ctx vcode rd size
  | .AluRRRShift aluOp size rd rn rm shiftop =>
    if aluOp = .Add ∧ shiftop.op = .LSL ∧ hasFact vcode rn ∧ hasFact vcode rm then
      checkBinop ctx vcode rd rn rm fun rn rm => do
        let rmShifted ← failIfMissing (ctx.shl rm size.bits shiftop.amt)
        failIfMissing (ctx.add rn rmShifted size.bits)
    else checkAluMaxRange ctx vcode rd size
  | .AluRRRExtend aluOp size rd rn rm extendop =>
    if aluOp = .Add ∧ hasFact vcode rn ∧ hasFact vcode rm then
      checkBinop ctx vcode rd rn rm fun rn rm => do
        let rmExtended ← failIfMissing (extendFact ctx rm extendop)
        failIfMissing (ctx.add rn rmExtended size.bits)
    else checkAluMaxRange ctx vcode rd size
  | .AluRRImmShift aluOp size rd rn immshift =>
    if aluOp = .Lsl ∧ hasFact vcode rn then
      checkUnop ctx vcode rd rn fun rn => failIfMissing (ctx.shl rn size.bits immshift.value)
    else checkAluMaxRange ctx vcode rd size
  | .Extend rd rn signed fromBits toBits =>
    if signed = false ∧ hasFact vcode rn then
      checkUnop ctx vcode rd rn fun rn => failIfMissing (ctx.uextend rn fromBits toBits)
    else checkUnmatched vcode (.Extend rd rn signed fromBits toBits)
  | .AluRRImmLogic _ size rd _ _ => checkAluMaxRange ctx vcode rd size
  | .MovWide .MovZ rd imm _ =>
    let constant := BitVec.ofNat 64 imm.bits <<< (imm.shift * 16)
    checkConstant ctx vcode rd 64 constant
  | .MovWide .MovN rd imm size =>
    let constant := ~~~(BitVec.ofNat 64 imm.bits <<< (imm.shift * 16)) &&& size.maxValue
    checkConstant ctx vcode rd 64 constant
  | .MovK rd rn imm _ =>
    match getFactOrDefault ctx vcode rn with
    | .error e => (.error e, vcode)
    | .ok input =>
      match ctx.asConst input 64 with
      | some inputConstant =>
        let constant := BitVec.ofNat 64 imm.bits <<< (imm.shift * 16)
        let constant := inputConstant ||| constant
        checkConstant ctx vcode rd 64 constant
      | none => checkOutput ctx vcode rd [] fun _ => .ok (ctx.maxRangeForWidth 64)
  | .Other defs uses => checkUnmatched vcode (.Other defs uses)

/-! ## A whole function -/

/-- Modelled from the spec: the driver checks the instructions in program order and
stops at the first failure. -/
def checkInsts (vcode : VCode Fact) : List Inst → PccResult Unit × VCode Fact
  | [] => (.ok (), vcode)
  | inst :: insts =>
    match check ctx vcode inst with
    | (.ok (), vcode) => checkInsts vcode insts
    | (.error e, vcode) => (.error e, vcode)

end Wasmfxtime.Pcc
