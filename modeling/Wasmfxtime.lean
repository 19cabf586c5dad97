import Wasmfxtime.Pcc.Inst
import Wasmfxtime.Pcc.Fact
import Wasmfxtime.Pcc.Check
import Wasmfxtime.Pcc.Semantics
import Wasmfxtime.Pcc.Contract
import Wasmfxtime.Pcc.Ranges
import Wasmfxtime.Pcc.Frame
import Wasmfxtime.Pcc.Commute
import Wasmfxtime.Pcc.Access
import Wasmfxtime.Pcc.Constants
import Wasmfxtime.Pcc.Soundness
import Wasmfxtime.Pcc.Fallback
import Wasmfxtime.Pcc.Safety
import Wasmfxtime.Pcc.Chains
import Wasmfxtime.Pcc.Recheck
import Wasmfxtime.WasiNn.Table
import Wasmfxtime.Compile.CodeBuilder
import Wasmfxtime.CApi.Val
