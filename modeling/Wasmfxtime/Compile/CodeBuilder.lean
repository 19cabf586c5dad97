import Mathlib.Data.List.Basic

/-! # `CodeBuilder`: where the bytes to compile come from

A builder takes one source of bytes, from `wasm` or `wasm_file`; a second call of either
fails and leaves the builder as it was. `wasm_binary` hands the bytes to the compiler,
through the text-format parser when `wat` is on, which it can only be with the crate
feature compiled in.
-/

namespace Wasmfxtime.Compile

/-- What `code_builder.rs` uses from outside the file: the `wat` crate feature, reading a
file, showing a path, and the text-format parser with the path it records on an error. -/
structure CodeBuilderEnv (Path IoError WatError : Type) where
  /-- `cfg!(feature = "wat")` -/
  watFeature : Bool
  /-- `std::fs::read` -/
  read : Path → Except IoError (List UInt8)
  /-- `Path::display` -/
  display : Path → String
  /-- `wat::parse_bytes` -/
  parseBytes : List UInt8 → Except WatError (List UInt8)
  /-- `wat::Error::set_path` -/
  setPath : WatError → Path → WatError

inductive Error (IoError WatError : Type)
  | msg (text : String)
  | context (text : String) (cause : IoError)
  | wat (e : WatError)

/-- The fields of `CodeBuilder` that its methods read and write: `wasm`, `wasm_path` and
`wat`, the first and last renamed here so as not to clash with the methods of those names. -/
structure CodeBuilder (Path : Type) where
  wasmBytes : Option (List UInt8)
  wasmPath : Option Path
  watEnabled : Bool

variable {Path IoError WatError : Type} (env : CodeBuilderEnv Path IoError WatError)

namespace CodeBuilder

def new : CodeBuilder Path := ⟨none, none, env.watFeature⟩

def wasm (b : CodeBuilder Path) (wasmBytes : List UInt8) (wasmPath : Option Path) :
    Except (Error IoError WatError) (CodeBuilder Path) :=
  if b.wasmBytes.isSome then .error (.msg "cannot call `wasm` or `wasm_file` twice")
  else .ok { b with wasmBytes := some wasmBytes, wasmPath := wasmPath }

def wat (b : CodeBuilder Path) (enable : Bool) :
    Except (Error IoError WatError) (CodeBuilder Path) :=
  if !env.watFeature && enable then .error (.msg "support for `wat` was disabled at compile time")
  else .ok { b with watEnabled := enable }

def wasmFile (b : CodeBuilder Path) (file : Path) :
    Except (Error IoError WatError) (CodeBuilder Path) :=
  if b.wasmBytes.isSome then .error (.msg "cannot call `wasm` or `wasm_file` twice")
  else
    match env.read file with
    | .error e => .error (.context ("failed to read input file: " ++ env.display file) e)
    | .ok wasm => .ok { b with wasmBytes := some wasm, wasmPath := some file }

-- Without the `wat` feature the parse is compiled out and the bytes are returned as they are.
def wasmBinary (b : CodeBuilder Path) : Except (Error IoError WatError) (List UInt8) :=
  match b.wasmBytes with
  | none => .error (.msg "no wasm bytes have been configured")
  | some wasm =>
    if b.watEnabled && env.watFeature then
      (env.parseBytes wasm).mapError fun e =>
        .wat (match b.wasmPath with
          | some path => env.setPath e path
          | none => e)
    else .ok wasm

def compileSerialized {Info : Type}
    (build : List UInt8 → Except (Error IoError WatError) (List UInt8 × Info))
    (b : CodeBuilder Path) : Except (Error IoError WatError) (List UInt8) := do
  let wasm ← b.wasmBinary env
  let (v, _) ← build wasm
  pure v

def compileModuleSerialized {Info : Type}
    (buildArtifacts : List UInt8 → Except (Error IoError WatError) (List UInt8 × Info))
    (b : CodeBuilder Path) : Except (Error IoError WatError) (List UInt8) :=
  b.compileSerialized env buildArtifacts

def compileComponentSerialized {Info : Type}
    (buildComponentArtifacts : List UInt8 → Except (Error IoError WatError) (List UInt8 × Info))
    (b : CodeBuilder Path) : Except (Error IoError WatError) (List UInt8) :=
  b.compileSerialized env buildComponentArtifacts

/-! ## Sequences of calls -/

inductive Call (Path : Type)
  | wasm (wasmBytes : List UInt8) (wasmPath : Option Path)
  | wat (enable : Bool)
  | wasmFile (file : Path)

def call (b : CodeBuilder Path) : Call Path → Except (Error IoError WatError) (CodeBuilder Path)
  | .wasm wasmBytes wasmPath => b.wasm wasmBytes wasmPath
  | .wat enable => b.wat env enable
  | .wasmFile file => b.wasmFile env file

/-- The builder after one call. Each method fails before it writes a field, so after a
failed call the builder is as it was. -/
def step (b : CodeBuilder Path) (c : Call Path) : CodeBuilder Path :=
  match b.call env c with
  | .ok b' => b'
  | .error _ => b

def run (b : CodeBuilder Path) (cs : List (Call Path)) : CodeBuilder Path :=
  cs.foldl (fun b c => b.step env c) b

def Call.source : Call Path → Option (List UInt8 × Option Path)
  | .wasm wasmBytes wasmPath => some (wasmBytes, wasmPath)
  | .wat _ => none
  | .wasmFile file => (env.read file).toOption.map fun wasm => (wasm, some file)

def source (b : CodeBuilder Path) : Option (List UInt8 × Option Path) :=
  b.wasmBytes.map fun wasm => (wasm, b.wasmPath)

/-! ## One call -/

theorem step_source (b : CodeBuilder Path) (c : Call Path) :
    (b.step env c).source = (b.source <|> c.source env) := by
  cases c with
  | wasm wasmBytes wasmPath => cases hb : b.wasmBytes <;> simp [step, call, wasm, hb, source, Call.source]
  | wat enable =>
    cases hb : b.wasmBytes <;> by_cases he : (!env.watFeature && enable) = true <;>
      simp [step, call, wat, he, hb, source, Call.source]
  | wasmFile file =>
    cases hb : b.wasmBytes <;> cases hr : env.read file <;>
      simp [step, call, wasmFile, hb, hr, source, Call.source, Except.toOption]

theorem step_watEnabled (b : CodeBuilder Path) (c : Call Path)
    (h : (b.step env c).watEnabled = true) : b.watEnabled = true ∨ env.watFeature = true := by
  cases c with
  | wasm wasmBytes wasmPath =>
    cases hb : b.wasmBytes <;> simp_all [step, call, wasm]
  | wat enable =>
    by_cases he : (!env.watFeature && enable) = true <;> simp_all [step, call, wat]
  | wasmFile file =>
    cases hb : b.wasmBytes <;> cases hr : env.read file <;> simp_all [step, call, wasmFile]

/-! ## Over every sequence of calls -/

theorem findSome?_cons_eq_orElse {α β : Type} (f : α → Option β) (a : α) (l : List α) :
    (a :: l).findSome? f = (f a <|> l.findSome? f) := by
  simp only [List.findSome?_cons]
  cases f a <;> rfl

/-- The first source wins: after any calls, a builder holds the bytes it held, or else those
of the first call that configures some. -/
theorem run_source (b : CodeBuilder Path) (cs : List (Call Path)) :
    (b.run env cs).source = (b.source <|> cs.findSome? (Call.source env)) := by
  induction cs generalizing b with
  | nil =>
    show b.source = (b.source <|> none)
    cases b.source <;> rfl
  | cons c cs ih =>
    rw [run, List.foldl_cons, ← run, ih, step_source, findSome?_cons_eq_orElse]
    cases b.source <;> rfl

theorem run_watEnabled (b : CodeBuilder Path) (h : b.watEnabled = true → env.watFeature = true)
    (cs : List (Call Path)) : (b.run env cs).watEnabled = true → env.watFeature = true := by
  induction cs generalizing b with
  | nil => exact h
  | cons c cs ih =>
    exact ih _ fun hs => (step_watEnabled env b c hs).elim h id

theorem wasmBytes_of_source {b : CodeBuilder Path} {wasm : List UInt8} {path : Option Path}
    (h : b.source = some (wasm, path)) : b.wasmBytes = some wasm := by
  simp only [source, Option.map_eq_some', Prod.mk.injEq] at h
  obtain ⟨w, hw, rfl, -⟩ := h
  exact hw

theorem wasmBinary_eq_msg_iff (b : CodeBuilder Path) :
    b.wasmBinary env = .error (.msg "no wasm bytes have been configured") ↔ b.source = none := by
  cases hb : b.wasmBytes with
  | none => simp [wasmBinary, source, hb]
  | some wasm =>
    simp only [wasmBinary, source, hb, Option.map_some', reduceCtorEq, iff_false]
    split
    · cases env.parseBytes wasm <;> simp [Except.mapError]
    · simp

theorem call_twice (b : CodeBuilder Path) (h : b.source ≠ none) :
    (∀ wasmBytes wasmPath, b.call env (.wasm wasmBytes wasmPath) =
      .error (.msg "cannot call `wasm` or `wasm_file` twice")) ∧
    ∀ file, b.call env (.wasmFile file) = .error (.msg "cannot call `wasm` or `wasm_file` twice") := by
  have hb : b.wasmBytes.isSome = true := by
    cases hw : b.wasmBytes
    · exact absurd (by simp [source, hw]) h
    · rfl
  exact ⟨fun _ _ => by simp [call, wasm, hb], fun _ => by simp [call, wasmFile, hb]⟩

/-- The builder's contract, over every sequence of calls from `CodeBuilder::new`: it holds the
bytes and path of the first `wasm` call or successful `wasm_file` call, and once it holds
some, both calls fail with their message; `wat` is on only with the crate feature compiled
in; `wasm_binary` fails with its "no wasm bytes" message exactly when no call configured
bytes, and without the feature returns the bytes unparsed. -/
theorem run_new_contract (cs : List (Call Path)) :
    ((new env).run env cs).source = cs.findSome? (Call.source env) ∧
    (cs.findSome? (Call.source env) ≠ none →
      (∀ wasmBytes wasmPath, ((new env).run env cs).call env (.wasm wasmBytes wasmPath) =
        .error (.msg "cannot call `wasm` or `wasm_file` twice")) ∧
      ∀ file, ((new env).run env cs).call env (.wasmFile file) =
        .error (.msg "cannot call `wasm` or `wasm_file` twice")) ∧
    (((new env).run env cs).watEnabled = true → env.watFeature = true) ∧
    (((new env).run env cs).wasmBinary env = .error (.msg "no wasm bytes have been configured") ↔
      cs.findSome? (Call.source env) = none) ∧
    (env.watFeature = false → ∀ wasm path, cs.findSome? (Call.source env) = some (wasm, path) →
      ((new env).run env cs).wasmBinary env = .ok wasm) := by
  have hsrc : ((new env).run env cs).source = cs.findSome? (Call.source env) :=
    run_source env (new env) cs
  refine ⟨hsrc, fun h => call_twice env _ (hsrc ▸ h), run_watEnabled env (new env) id cs,
    hsrc ▸ wasmBinary_eq_msg_iff env _, fun hf wasm path h => ?_⟩
  rw [h] at hsrc
  simp [wasmBinary, wasmBytes_of_source hsrc, hf]

end CodeBuilder

end Wasmfxtime.Compile
