import NearKit.DebugText
import NearKit.Errors

/-!
# Errors of function calls

The errors that a node reports of a contract call, as values and in their `Debug` text,
and the two functions that classify them: one looks at the value, the other scans the
text of nodes that send nothing else.
-/
namespace NearKit

/-! ## The errors and their `Debug` text -/

/-- A JSON value that is not recognized, given by its `Debug` text. -/
structure UnknownError where
  value : List Char
  deriving DecidableEq

def UnknownError.debug (e : UnknownError) : List Char := Debug.tuple "UnknownError" e.value

inductive PrepareError where
  | serialization | deserialization | internalMemoryDeclared | gasInstrumentation
  | stackHeightInstrumentation | instantiate | memory | tooManyFunctions | tooManyLocals
  | tooManyTables | tooManyTableElements | functionBodyTooLarge | instrumentedCodeTooLarge
  | tooManyBlocksPerFunction | tooManyBlocksPerContract | tooManyTypes
  | tooManyParamsPerFunction | tooManyParamsPerContract | operandStackTooLarge
  | unknown (error : UnknownError)
  deriving DecidableEq

def PrepareError.debug : PrepareError → List Char
  | serialization => Debug.unit "Serialization"
  | deserialization => Debug.unit "Deserialization"
  | internalMemoryDeclared => Debug.unit "InternalMemoryDeclared"
  | gasInstrumentation => Debug.unit "GasInstrumentation"
  | stackHeightInstrumentation => Debug.unit "StackHeightInstrumentation"
  | instantiate => Debug.unit "Instantiate"
  | memory => Debug.unit "Memory"
  | tooManyFunctions => Debug.unit "TooManyFunctions"
  | tooManyLocals => Debug.unit "TooManyLocals"
  | tooManyTables => Debug.unit "TooManyTables"
  | tooManyTableElements => Debug.unit "TooManyTableElements"
  | functionBodyTooLarge => Debug.unit "FunctionBodyTooLarge"
  | instrumentedCodeTooLarge => Debug.unit "InstrumentedCodeTooLarge"
  | tooManyBlocksPerFunction => Debug.unit "TooManyBlocksPerFunction"
  | tooManyBlocksPerContract => Debug.unit "TooManyBlocksPerContract"
  | tooManyTypes => Debug.unit "TooManyTypes"
  | tooManyParamsPerFunction => Debug.unit "TooManyParamsPerFunction"
  | tooManyParamsPerContract => Debug.unit "TooManyParamsPerContract"
  | operandStackTooLarge => Debug.unit "OperandStackTooLarge"
  | unknown error => Debug.tuple "Unknown" error.debug

inductive CompilationError where
  | codeDoesNotExist (accountId : AccountId)
  | prepareError (error : PrepareError)
  | wasmerCompileError (msg : String)
  | unknown (error : UnknownError)
  deriving DecidableEq

inductive MethodResolveError where
  | methodEmptyName | methodNotFound | methodInvalidSignature
  | unknown (error : UnknownError)
  deriving DecidableEq

def MethodResolveError.debug : MethodResolveError → List Char
  | methodEmptyName => Debug.unit "MethodEmptyName"
  | methodNotFound => Debug.unit "MethodNotFound"
  | methodInvalidSignature => Debug.unit "MethodInvalidSignature"
  | unknown error => Debug.tuple "Unknown" error.debug

inductive WasmTrap where
  | unreachable | incorrectCallIndirectSignature | memoryOutOfBounds | callIndirectOob
  | illegalArithmetic | misalignedAtomicAccess | indirectCallToNull | stackOverflow | genericTrap
  | unknown (error : UnknownError)
  deriving DecidableEq

def WasmTrap.debug : WasmTrap → List Char
  | unreachable => Debug.unit "Unreachable"
  | incorrectCallIndirectSignature => Debug.unit "IncorrectCallIndirectSignature"
  | memoryOutOfBounds => Debug.unit "MemoryOutOfBounds"
  | callIndirectOob => Debug.unit "CallIndirectOob"
  | illegalArithmetic => Debug.unit "IllegalArithmetic"
  | misalignedAtomicAccess => Debug.unit "MisalignedAtomicAccess"
  | indirectCallToNull => Debug.unit "IndirectCallToNull"
  | stackOverflow => Debug.unit "StackOverflow"
  | genericTrap => Debug.unit "GenericTrap"
  | unknown error => Debug.tuple "Unknown" error.debug

inductive HostError where
  | badUtf16 | badUtf8 | gasExceeded | gasLimitExceeded | balanceExceeded | emptyMethodName
  | guestPanic (panicMsg : String)
  | integerOverflow
  | invalidPromiseIndex (promiseIdx : UInt64)
  | cannotAppendActionToJointPromise | cannotReturnJointPromise
  | invalidPromiseResultIndex (resultIdx : UInt64)
  | invalidRegisterId (registerId : UInt64)
  | iteratorWasInvalidated (iteratorIndex : UInt64)
  | memoryAccessViolation
  | invalidReceiptIndex (receiptIndex : UInt64)
  | invalidIteratorIndex (iteratorIndex : UInt64)
  | invalidAccountId | invalidMethodName | invalidPublicKey
  | prohibitedInView (methodName : String)
  | numberOfLogsExceeded (limit : UInt64)
  | keyLengthExceeded (length limit : UInt64)
  | valueLengthExceeded (length limit : UInt64)
  | totalLogLengthExceeded (length limit : UInt64)
  | numberPromisesExceeded (limit numberOfPromises : UInt64)
  | numberInputDataDependenciesExceeded (limit numberOfInputDataDependencies : UInt64)
  | returnedValueLengthExceeded (length limit : UInt64)
  | contractSizeExceeded (limit size : UInt64)
  | deprecated (methodName : String)
  | ecRecoverError (msg : String)
  | altBn128InvalidInput (msg : String)
  | ed25519VerifyInvalidInput (msg : String)
  | p256VerifyInvalidInput (msg : String)
  | unknown (error : UnknownError)
  deriving DecidableEq

inductive FunctionCallError where
  | wasmUnknownError
  | evmError
  | compilationError (error : CompilationError)
  | linkError (msg : String)
  | methodResolveError (error : MethodResolveError)
  | wasmTrap (trap : WasmTrap)
  | hostError (error : HostError)
  | executionError (message : String)
  | unknown (error : UnknownError)
  deriving DecidableEq

section
variable (byNumber : Char → Bool)

/-- The tuple struct around the name. -/
def AccountId.debug (id : AccountId) : List Char :=
  Debug.tuple "AccountId" (Debug.str byNumber id.name)

def CompilationError.debug : CompilationError → List Char
  | codeDoesNotExist accountId =>
    Debug.struct "CodeDoesNotExist" [("account_id", accountId.debug byNumber)]
  | prepareError error => Debug.tuple "PrepareError" error.debug
  | wasmerCompileError msg => Debug.struct "WasmerCompileError" [("msg", Debug.str byNumber msg)]
  | unknown error => Debug.tuple "Unknown" error.debug

def HostError.debug : HostError → List Char
  | badUtf16 => Debug.unit "BadUtf16"
  | badUtf8 => Debug.unit "BadUtf8"
  | gasExceeded => Debug.unit "GasExceeded"
  | gasLimitExceeded => Debug.unit "GasLimitExceeded"
  | balanceExceeded => Debug.unit "BalanceExceeded"
  | emptyMethodName => Debug.unit "EmptyMethodName"
  | guestPanic panicMsg => Debug.struct "GuestPanic" [("panic_msg", Debug.str byNumber panicMsg)]
  | integerOverflow => Debug.unit "IntegerOverflow"
  | invalidPromiseIndex promiseIdx =>
    Debug.struct "InvalidPromiseIndex" [("promise_idx", Debug.u64 promiseIdx)]
  | cannotAppendActionToJointPromise => Debug.unit "CannotAppendActionToJointPromise"
  | cannotReturnJointPromise => Debug.unit "CannotReturnJointPromise"
  | invalidPromiseResultIndex resultIdx =>
    Debug.struct "InvalidPromiseResultIndex" [("result_idx", Debug.u64 resultIdx)]
  | invalidRegisterId registerId =>
    Debug.struct "InvalidRegisterId" [("register_id", Debug.u64 registerId)]
  | iteratorWasInvalidated iteratorIndex =>
    Debug.struct "IteratorWasInvalidated" [("iterator_index", Debug.u64 iteratorIndex)]
  | memoryAccessViolation => Debug.unit "MemoryAccessViolation"
  | invalidReceiptIndex receiptIndex =>
    Debug.struct "InvalidReceiptIndex" [("receipt_index", Debug.u64 receiptIndex)]
  | invalidIteratorIndex iteratorIndex =>
    Debug.struct "InvalidIteratorIndex" [("iterator_index", Debug.u64 iteratorIndex)]
  | invalidAccountId => Debug.unit "InvalidAccountId"
  | invalidMethodName => Debug.unit "InvalidMethodName"
  | invalidPublicKey => Debug.unit "InvalidPublicKey"
  | prohibitedInView methodName =>
    Debug.struct "ProhibitedInView" [("method_name", Debug.str byNumber methodName)]
  | numberOfLogsExceeded limit => Debug.struct "NumberOfLogsExceeded" [("limit", Debug.u64 limit)]
  | keyLengthExceeded length limit =>
    Debug.struct "KeyLengthExceeded" [("length", Debug.u64 length), ("limit", Debug.u64 limit)]
  | valueLengthExceeded length limit =>
    Debug.struct "ValueLengthExceeded" [("length", Debug.u64 length), ("limit", Debug.u64 limit)]
  | totalLogLengthExceeded length limit =>
    Debug.struct "TotalLogLengthExceeded" [("length", Debug.u64 length), ("limit", Debug.u64 limit)]
  | numberPromisesExceeded limit numberOfPromises =>
    Debug.struct "NumberPromisesExceeded"
      [("limit", Debug.u64 limit), ("number_of_promises", Debug.u64 numberOfPromises)]
  | numberInputDataDependenciesExceeded limit numberOfInputDataDependencies =>
    Debug.struct "NumberInputDataDependenciesExceeded" [("limit", Debug.u64 limit),
      ("number_of_input_data_dependencies", Debug.u64 numberOfInputDataDependencies)]
  | returnedValueLengthExceeded length limit =>
    Debug.struct "ReturnedValueLengthExceeded"
      [("length", Debug.u64 length), ("limit", Debug.u64 limit)]
  | contractSizeExceeded limit size =>
    Debug.struct "ContractSizeExceeded" [("limit", Debug.u64 limit), ("size", Debug.u64 size)]
  | deprecated methodName =>
    Debug.struct "Deprecated" [("method_name", Debug.str byNumber methodName)]
  | ecRecoverError msg => Debug.struct "EcRecoverError" [("msg", Debug.str byNumber msg)]
  | altBn128InvalidInput msg =>
    Debug.struct "AltBn128InvalidInput" [("msg", Debug.str byNumber msg)]
  | ed25519VerifyInvalidInput msg =>
    Debug.struct "Ed25519VerifyInvalidInput" [("msg", Debug.str byNumber msg)]
  | p256VerifyInvalidInput msg =>
    Debug.struct "P256VerifyInvalidInput" [("msg", Debug.str byNumber msg)]
  | unknown error => Debug.tuple "Unknown" error.debug

def FunctionCallError.debug : FunctionCallError → List Char
  | wasmUnknownError => Debug.unit "WasmUnknownError"
  | evmError => Debug.unit "EvmError"
  | compilationError error => Debug.tuple "CompilationError" (error.debug byNumber)
  | linkError msg => Debug.struct "LinkError" [("msg", Debug.str byNumber msg)]
  | methodResolveError error => Debug.tuple "MethodResolveError" error.debug
  | wasmTrap trap => Debug.tuple "WasmTrap" trap.debug
  | hostError error => Debug.tuple "HostError" (error.debug byNumber)
  | executionError message => Debug.tuple "ExecutionError" (Debug.str byNumber message)
  | unknown error => Debug.tuple "Unknown" error.debug

end

/-! ## Reading a `Debug` string -/

def u32FromStrRadix16 (cs : List Char) : Option ℕ :=
  let digits := match cs with
    | '+' :: c :: rest => c :: rest
    | cs => cs
  if digits.isEmpty then none
  else do
    let ds ← digits.mapM Hex.value
    let n := Digits.number 16 ds
    if n < 2 ^ 32 then some n else none

def charFromU32 (n : ℕ) : Option Char := if n.isValidChar then some (Char.ofNat n) else none

/-- Where the scan of a string is: in its text, behind a backslash, behind `\u`, between the
braces. -/
inductive DebugScan where
  | text | escape | unicode
  | hex (digits : List Char)

/-- `out` is what is unescaped so far, last character first. -/
def DebugScan.run : DebugScan → List Char → List Char → Option (List Char)
  | _, _, [] => none
  | text, out, c :: cs =>
    if c = Debug.quote then some out.reverse
    else if c = Debug.backslash then run escape out cs
    else run text (c :: out) cs
  | escape, out, c :: cs =>
    if c = 'n' then run text (Debug.newline :: out) cs
    else if c = 'r' then run text (Debug.carriageReturn :: out) cs
    else if c = 't' then run text (Debug.tab :: out) cs
    else if c = '0' then run text (Debug.null :: out) cs
    else if c = 'u' then run unicode out cs
    else run text (c :: out) cs
  | unicode, out, c :: cs => if c = '{' then run (hex []) out cs else none
  | hex digits, out, c :: cs =>
    if c = '}' then
      match (u32FromStrRadix16 digits.reverse).bind charFromU32 with
      | some c => run text (c :: out) cs
      | none => none
    else run (hex (c :: digits)) out cs

def parseDebugStr (input : List Char) : Option (List Char) :=
  (Text.stripPrefix [Debug.quote] input).bind (DebugScan.text.run [])

private theorem Hex.symbol_ne_plus {d : ℕ} (h : d < 16) : Hex.symbol d ≠ '+' := by
  have hall : ∀ d : Fin 16, Hex.symbol d ≠ '+' := by decide
  exact hall ⟨d, h⟩

private theorem u32FromStrRadix16_symbols {ds : List ℕ} (hds : ∀ d ∈ ds, d < 16) (hne : ds ≠ [])
    (hlt : Digits.number 16 ds < 2 ^ 32) :
    u32FromStrRadix16 (ds.map Hex.symbol) = some (Digits.number 16 ds) := by
  have hplus : '+' ∉ ds.map Hex.symbol := by
    intro hmem
    obtain ⟨d, hd, hsymbol⟩ := List.mem_map.mp hmem
    exact Hex.symbol_ne_plus (hds d hd) hsymbol
  have hmapM : (ds.map Hex.symbol).mapM Hex.value = some ds :=
    Digits.mapM_map fun d hd => Hex.value_symbol (hds d hd)
  have hempty : (ds.map Hex.symbol).isEmpty = false := by simpa using hne
  unfold u32FromStrRadix16
  split
  · next heq => exact absurd (heq ▸ List.mem_cons_self) hplus
  · simp only [hempty, hmapM]
    exact if_pos hlt

private theorem charFromU32_toNat (c : Char) : charFromU32 c.toNat = some c := by
  have hvalid : c.toNat.isValidChar := c.valid
  unfold charFromU32
  rw [if_pos hvalid, Char.ofNat_toNat]

/-- The number between the braces leads back to the character. -/
theorem charFromU32_hexDigits {c : Char} (h : c ≠ Debug.null) :
    (u32FromStrRadix16 (Debug.hexDigits c)).bind charFromU32 = some c := by
  have hnumber : Digits.number 16 (Nat.digits 16 c.toNat).reverse = c.toNat := by
    unfold Digits.number
    rw [List.reverse_reverse, Nat.ofDigits_digits]
  have hlt : Digits.number 16 (Nat.digits 16 c.toNat).reverse < 2 ^ 32 := by
    rw [hnumber]
    exact c.val.toNat_lt
  have hzero : c.toNat ≠ 0 := by
    intro hzero
    apply h
    rw [← Char.ofNat_toNat c, hzero]
    rfl
  have hdigits : u32FromStrRadix16 (Debug.hexDigits c) = some c.toNat := by
    refine (u32FromStrRadix16_symbols ?_ ?_ hlt).trans (congrArg some hnumber)
    · intro d hd
      exact Nat.digits_lt_base (by norm_num) (List.mem_reverse.mp hd)
    · simpa [Nat.digits_ne_nil_iff_ne_zero] using hzero
  rw [hdigits]
  exact charFromU32_toNat c

namespace DebugScan

theorem run_hex {ds : List Char} (h : '}' ∉ ds) (digits out cs : List Char) :
    run (hex digits) out (ds ++ '}' :: cs) =
      match (u32FromStrRadix16 (digits.reverse ++ ds)).bind charFromU32 with
      | some c => run text (c :: out) cs
      | none => none := by
  induction ds generalizing digits with
  | nil => rw [List.append_nil, List.nil_append, run, if_pos rfl]
  | cons d ds ih =>
    have hd : d ≠ '}' := (List.ne_of_not_mem_cons h).symm
    rw [List.cons_append, run, if_neg hd, ih (List.not_mem_of_not_mem_cons h), List.reverse_cons,
      List.append_assoc, List.singleton_append]

theorem not_mem_hexDigits (c : Char) : '}' ∉ Debug.hexDigits c := by
  intro hmem
  obtain ⟨d, hd, hsymbol⟩ := List.mem_map.mp hmem
  have hlt : d < 16 := Nat.digits_lt_base (by norm_num) (List.mem_reverse.mp hd)
  have hall : ∀ d : Fin 16, Hex.symbol d ≠ '}' := by decide
  exact hall ⟨d, hlt⟩ hsymbol

variable (byNumber : Char → Bool)

theorem run_escapeChar (c : Char) (out cs : List Char) :
    run text out (Debug.escapeChar byNumber c ++ cs) = run text (c :: out) cs := by
  unfold Debug.escapeChar
  split_ifs with hquote hbackslash hnewline hcr htab hnull hnumber
  · rw [hquote]
    rfl
  · rw [hbackslash]
    rfl
  · rw [hnewline]
    rfl
  · rw [hcr]
    rfl
  · rw [htab]
    rfl
  · rw [hnull]
    rfl
  · have hscan : run text out (Debug.backslash :: 'u' :: '{' :: Debug.hexDigits c ++ ['}'] ++ cs) =
        run (hex []) out (Debug.hexDigits c ++ '}' :: cs) := by
      rw [List.append_assoc]
      rfl
    rw [hscan, run_hex (not_mem_hexDigits c), List.reverse_nil, List.nil_append,
      charFromU32_hexDigits hnull]
  · rw [List.singleton_append, run, if_neg hquote, if_neg hbackslash]

private theorem run_escape (s out cs : List Char) :
    run text out (Debug.escape byNumber s ++ cs) = run text (s.reverse ++ out) cs := by
  unfold Debug.escape
  induction s generalizing out with
  | nil => rfl
  | cons c s ih =>
    rw [List.flatMap_cons, List.append_assoc, run_escapeChar, ih, List.reverse_cons,
      List.append_assoc, List.singleton_append]

end DebugScan

/-- A quoted string is read back, whatever follows it. -/
theorem parseDebugStr_str (byNumber : Char → Bool) (s : String) (rest : List Char) :
    parseDebugStr (Debug.str byNumber s ++ rest) = some s.toList := by
  have hscan : parseDebugStr (Debug.str byNumber s ++ rest) =
      DebugScan.text.run [] (Debug.escape byNumber s.toList ++ Debug.quote :: rest) := by
    unfold Debug.str
    rw [List.append_assoc]
    rfl
  rw [hscan, DebugScan.run_escape, DebugScan.run, if_pos rfl, List.append_nil, List.reverse_reverse]

/-! ## The classifiers -/

/-- An error with the block that its variant carries. -/
structure AtBlock where
  error : RpcError
  blockHeight : Option UInt64
  blockHash : Option CryptoHash
  deriving DecidableEq

def panicPrefix : String := "Smart contract panicked"

def extractContractPanicMessage (message : List Char) : Option String :=
  match Text.splitAtByte panicPrefix.utf8ByteSize message with
  | none => none
  | some (candidatePrefix, rest) =>
    if ¬ Text.eqIgnoreAsciiCase candidatePrefix panicPrefix.toList then none
    else match rest with
    | [] => some (String.ofList message)
    | c :: rest =>
      if c = ':' then
        let panicMessage := Text.trimStart rest
        some (String.ofList (if panicMessage.isEmpty then message else panicMessage))
      else none

def classifyFunctionCallError (error : FunctionCallError) (contractId : AccountId)
    (methodName : Option String) (blockHeight : Option UInt64) (blockHash : Option CryptoHash) :
    Option AtBlock :=
  match error with
  | .compilationError (.codeDoesNotExist accountId) =>
    some ⟨.contractNotDeployed accountId, blockHeight, blockHash⟩
  | .methodResolveError .methodNotFound =>
    some ⟨.methodNotFound contractId (methodName.getD "unknown"), blockHeight, blockHash⟩
  | .hostError (.guestPanic panicMsg) => some ⟨.contractPanic panicMsg, blockHeight, blockHash⟩
  | .executionError message =>
    (extractContractPanicMessage message.toList).map fun message =>
      ⟨.contractPanic message, blockHeight, blockHash⟩
  | _ => none

def functionCallEnvelope : String := "Function call returned an error:"

def wasmExecutionEnvelope : String := "wasm execution failed with error:"

/-- The text behind an envelope, if it is there. -/
def stripEnvelope (rest : List Char) (envelope : String) : List Char :=
  match Text.stripPrefix envelope.toList rest with
  | some rest => Text.trimStart rest
  | none => rest

/-- The message without the envelopes around the error. -/
def withoutEnvelopes (message : List Char) : List Char :=
  [functionCallEnvelope, wasmExecutionEnvelope].foldl stripEnvelope (Text.trim message)

/-- The account that the text of `CodeDoesNotExist` names. -/
def parseAccountId [Crates] (rest : List Char) : Option AccountId := do
  let rest ← Text.afterOnce "account_id:".toList rest
  let rest ← Text.fromFirst Debug.quote rest
  let accountId ← parseDebugStr rest
  AccountId.validate (String.ofList accountId)

def classifyLegacyFunctionCallError [Crates] (message : List Char) (contractId : AccountId)
    (methodName : Option String) (blockHeight : Option UInt64) (blockHash : Option CryptoHash) :
    Option AtBlock :=
  let error := withoutEnvelopes message
  let contractPanic (message : String) : AtBlock :=
    ⟨.contractPanic message, blockHeight, blockHash⟩
  match Text.stripPrefix "ExecutionError(".toList error with
  | some rest =>
    let inner := (parseDebugStr rest).getD (Text.trimEndMatches ')' (Text.trimEnd rest))
    (extractContractPanicMessage inner).map contractPanic
  | none =>
    match Text.stripPrefix "HostError(GuestPanic".toList error with
    | some rest =>
      let message := (Text.afterOnce "panic_msg:".toList rest).bind fun rest =>
        parseDebugStr (Text.trimStart rest)
      some (contractPanic (String.ofList (message.getD error)))
    | none =>
      match Text.stripPrefix "CompilationError(CodeDoesNotExist".toList error with
      | some rest =>
        let accountId := (parseAccountId rest).getD contractId
        some ⟨.contractNotDeployed accountId, blockHeight, blockHash⟩
      | none =>
        match Text.stripPrefix "MethodResolveError(MethodNotFound)".toList error with
        | some _ =>
          some ⟨.methodNotFound contractId (methodName.getD "unknown"), blockHeight, blockHash⟩
        | none => (extractContractPanicMessage error).map contractPanic

/-! ## The text of an error, with and without an envelope -/

inductive Envelope where
  | none | functionCall | wasmExecution
  deriving DecidableEq

/-- The message in which a node reports the text of an error. -/
def Envelope.embed : Envelope → List Char → List Char
  | none, error => error
  | functionCall, error => functionCallEnvelope.toList ++ ' ' :: error
  | wasmExecution, error => wasmExecutionEnvelope.toList ++ ' ' :: error

private theorem stripEnvelope_of_some {rest error : List Char} {envelope : String}
    (h : Text.stripPrefix envelope.toList rest = some error) :
    stripEnvelope rest envelope = Text.trimStart error := by
  unfold stripEnvelope
  rw [h]

private theorem stripEnvelope_of_none {rest : List Char} {envelope : String}
    (h : Text.stripPrefix envelope.toList rest = none) : stripEnvelope rest envelope = rest := by
  unfold stripEnvelope
  rw [h]

private theorem Text.stripPrefix_cons_of_ne {p c : Char} (h : p ≠ c) (ps cs : List Char) :
    Text.stripPrefix (p :: ps) (c :: cs) = none := if_neg h

section
variable (byNumber : Char → Bool)

/-- A known error starts with the first letter of its variant, an envelope with another. -/
theorem FunctionCallError.debug_head {e : FunctionCallError} (h : ∀ error, e ≠ .unknown error) :
    ∃ c cs, e.debug byNumber = c :: cs ∧ Text.isWhitespace c = false ∧ 'F' ≠ c ∧ 'w' ≠ c := by
  cases e with
  | wasmUnknownError => exact ⟨_, _, rfl, rfl, by decide, by decide⟩
  | evmError => exact ⟨_, _, rfl, rfl, by decide, by decide⟩
  | compilationError error => exact ⟨_, _, rfl, rfl, by decide, by decide⟩
  | linkError msg => exact ⟨_, _, rfl, rfl, by decide, by decide⟩
  | methodResolveError error => exact ⟨_, _, rfl, rfl, by decide, by decide⟩
  | wasmTrap trap => exact ⟨_, _, rfl, rfl, by decide, by decide⟩
  | hostError error => exact ⟨_, _, rfl, rfl, by decide, by decide⟩
  | executionError message => exact ⟨_, _, rfl, rfl, by decide, by decide⟩
  | unknown error => exact absurd rfl (h error)

theorem FunctionCallError.debug_last (e : FunctionCallError) :
    ∃ cs c, e.debug byNumber = cs ++ [c] ∧ Text.isWhitespace c = false := by
  cases e with
  | wasmUnknownError => exact ⟨"WasmUnknownErro".toList, 'r', rfl, rfl⟩
  | evmError => exact ⟨"EvmErro".toList, 'r', rfl, rfl⟩
  | linkError msg =>
    refine ⟨"LinkError".toList ++ ' ' :: '{' :: ' ' ::
      Debug.fields [("msg", Debug.str byNumber msg)] ++ [' '], '}', ?_, rfl⟩
    rw [List.append_assoc]
    rfl
  | compilationError error => exact ⟨_, ')', rfl, rfl⟩
  | methodResolveError error => exact ⟨_, ')', rfl, rfl⟩
  | wasmTrap trap => exact ⟨_, ')', rfl, rfl⟩
  | hostError error => exact ⟨_, ')', rfl, rfl⟩
  | executionError message => exact ⟨_, ')', rfl, rfl⟩
  | unknown error => exact ⟨_, ')', rfl, rfl⟩

/-- The envelope is taken off, and nothing of the error. -/
theorem FunctionCallError.withoutEnvelopes_embed {e : FunctionCallError}
    (h : ∀ error, e ≠ .unknown error) (envelope : Envelope) :
    withoutEnvelopes (envelope.embed (e.debug byNumber)) = e.debug byNumber := by
  obtain ⟨c, cs, hhead, hwhite, hfunction, hwasm⟩ := e.debug_head byNumber h
  obtain ⟨ds, d, hlast, hd⟩ := e.debug_last byNumber
  generalize e.debug byNumber = r at hhead hlast
  have hstart : Text.trimStart r = r := by
    rw [hhead]
    exact Text.trimStart_cons hwhite cs
  have hfirst : stripEnvelope r functionCallEnvelope = r := by
    apply stripEnvelope_of_none
    rw [hhead]
    exact Text.stripPrefix_cons_of_ne hfunction _ cs
  have hsecond : stripEnvelope r wasmExecutionEnvelope = r := by
    apply stripEnvelope_of_none
    rw [hhead]
    exact Text.stripPrefix_cons_of_ne hwasm _ cs
  have hblank (envelope : String) :
      stripEnvelope (envelope.toList ++ ' ' :: r) envelope = r :=
    (stripEnvelope_of_some (Text.stripPrefix_append _ _)).trans hstart
  have htrim (p : Char) (ps : List Char) (hp : Text.isWhitespace p = false) :
      Text.trim (p :: ps ++ r) = p :: ps ++ r := by
    unfold Text.trim
    rw [List.cons_append, Text.trimStart_cons hp, hlast, ← List.cons_append, ← List.append_assoc]
    exact Text.trimEnd_append hd _
  show stripEnvelope (stripEnvelope (Text.trim (envelope.embed r)) functionCallEnvelope)
    wasmExecutionEnvelope = r
  cases envelope with
  | none =>
    have hr : Text.trim r = r := by
      unfold Text.trim
      rw [hstart, hlast]
      exact Text.trimEnd_append hd ds
    rw [Envelope.embed, hr, hfirst, hsecond]
  | functionCall =>
    have hr : Text.trim (functionCallEnvelope.toList ++ ' ' :: r) =
        functionCallEnvelope.toList ++ ' ' :: r :=
      htrim 'F' "unction call returned an error: ".toList rfl
    rw [Envelope.embed, hr, hblank, hsecond]
  | wasmExecution =>
    have hr : Text.trim (wasmExecutionEnvelope.toList ++ ' ' :: r) =
        wasmExecutionEnvelope.toList ++ ' ' :: r :=
      htrim 'w' "asm execution failed with error: ".toList rfl
    have hother : stripEnvelope (wasmExecutionEnvelope.toList ++ ' ' :: r) functionCallEnvelope =
        wasmExecutionEnvelope.toList ++ ' ' :: r :=
      stripEnvelope_of_none (Text.stripPrefix_cons_of_ne (by decide) _ _)
    rw [Envelope.embed, hr, hother, hblank]

end

/-! ## Agreement -/

theorem extractContractPanicMessage_cons {c : Char} (h : c.toLower ≠ 's') (cs : List Char) :
    extractContractPanicMessage (c :: cs) = none := by
  unfold extractContractPanicMessage
  cases hsplit : Text.splitAtByte panicPrefix.utf8ByteSize (c :: cs) with
  | none => rfl
  | some parts =>
    have hsize : panicPrefix.utf8ByteSize = 22 + 1 := rfl
    rw [hsize, Text.splitAtByte] at hsplit
    split at hsplit
    · obtain ⟨⟨pre, rest⟩, -, rfl⟩ := Option.map_eq_some_iff.mp hsplit
      have hne : Text.eqIgnoreAsciiCase (c :: pre) panicPrefix.toList = false := by
        apply beq_eq_false_iff_ne.mpr
        intro heq
        exact h (List.cons.inj heq).1
      simp [hne]
    · cases hsplit

section
variable [Crates] (byNumber : Char → Bool) (contractId : AccountId) (methodName : Option String)
variable (blockHeight : Option UInt64) (blockHash : Option CryptoHash)

/-- Texts that no branch of the scanner knows are not classified. -/
theorem classifyLegacyFunctionCallError_eq_none {message error : List Char}
    (herror : withoutEnvelopes message = error)
    (hexecution : Text.stripPrefix "ExecutionError(".toList error = none)
    (hpanic : Text.stripPrefix "HostError(GuestPanic".toList error = none)
    (hcode : Text.stripPrefix "CompilationError(CodeDoesNotExist".toList error = none)
    (hmethod : Text.stripPrefix "MethodResolveError(MethodNotFound)".toList error = none)
    (hextract : extractContractPanicMessage error = none) :
    classifyLegacyFunctionCallError message contractId methodName blockHeight blockHash = none := by
  unfold classifyLegacyFunctionCallError
  rw [herror]
  simp only
  rw [hexecution, hpanic, hcode, hmethod, hextract]
  rfl

omit [Crates] in
/-- The variants of host errors other than a panic have other names. -/
theorem HostError.stripPrefix_guestPanic {e : HostError} (h : ∀ panicMsg, e ≠ .guestPanic panicMsg)
    (rest : List Char) : Text.stripPrefix "GuestPanic".toList (e.debug byNumber ++ rest) = none := by
  cases e with
  | guestPanic panicMsg => exact absurd rfl (h panicMsg)
  | _ => rfl

variable {message : List Char}

private theorem classifyLegacy_executionError {msg : String}
    (h : withoutEnvelopes message = Debug.tuple "ExecutionError" (Debug.str byNumber msg)) :
    classifyLegacyFunctionCallError message contractId methodName blockHeight blockHash =
      (extractContractPanicMessage msg.toList).map fun message =>
        ⟨.contractPanic message, blockHeight, blockHash⟩ := by
  have hstrip : Text.stripPrefix "ExecutionError(".toList
      (Debug.tuple "ExecutionError" (Debug.str byNumber msg)) =
        some (Debug.str byNumber msg ++ [')']) := rfl
  unfold classifyLegacyFunctionCallError
  rw [h]
  simp only
  rw [hstrip]
  simp only
  rw [parseDebugStr_str, Option.getD_some]

private theorem classifyLegacy_guestPanic {panicMsg : String}
    (h : withoutEnvelopes message =
      Debug.tuple "HostError" (HostError.debug byNumber (.guestPanic panicMsg))) :
    classifyLegacyFunctionCallError message contractId methodName blockHeight blockHash =
      some ⟨.contractPanic panicMsg, blockHeight, blockHash⟩ := by
  have htext : withoutEnvelopes message = "HostError(GuestPanic".toList ++
      (" \x7b panic_msg: ".toList ++ (Debug.str byNumber panicMsg ++ " \x7d)".toList)) :=
    h.trans (Debug.tuple_struct _ _ _ _)
  have hexecution : Text.stripPrefix "ExecutionError(".toList ("HostError(GuestPanic".toList ++
      (" \x7b panic_msg: ".toList ++ (Debug.str byNumber panicMsg ++ " \x7d)".toList))) = none := rfl
  have hfield : Text.afterOnce "panic_msg:".toList
      (" \x7b panic_msg: ".toList ++ (Debug.str byNumber panicMsg ++ " \x7d)".toList)) =
        some (' ' :: (Debug.str byNumber panicMsg ++ " \x7d)".toList)) := rfl
  have htrim : Text.trimStart (' ' :: (Debug.str byNumber panicMsg ++ " \x7d)".toList)) =
      Debug.str byNumber panicMsg ++ " \x7d)".toList := rfl
  unfold classifyLegacyFunctionCallError
  rw [htext]
  simp only
  rw [hexecution, Text.stripPrefix_append]
  simp only
  rw [hfield, Option.bind_some, htrim, parseDebugStr_str, Option.getD_some, String.ofList_toList]

private theorem parseAccountId_debug {id : AccountId} (h : id.Valid) :
    parseAccountId (" \x7b account_id: ".toList ++ (id.debug byNumber ++ " \x7d)".toList)) = some id := by
  have hfield : Text.afterOnce "account_id:".toList
      (" \x7b account_id: ".toList ++ (id.debug byNumber ++ " \x7d)".toList)) =
        some (' ' :: (id.debug byNumber ++ " \x7d)".toList)) := rfl
  have hquote : Text.fromFirst Debug.quote (' ' :: (id.debug byNumber ++ " \x7d)".toList)) =
      some (Debug.str byNumber id.name ++ ")".toList ++ " \x7d)".toList) := rfl
  unfold parseAccountId
  simp only [Option.bind_eq_bind]
  rw [hfield, Option.bind_some, hquote, Option.bind_some, List.append_assoc, parseDebugStr_str,
    Option.bind_some, String.ofList_toList]
  exact AccountId.validate_eq_some.mpr ⟨rfl, h⟩

private theorem classifyLegacy_codeDoesNotExist {id : AccountId} (hvalid : id.Valid)
    (h : withoutEnvelopes message =
      Debug.tuple "CompilationError" (CompilationError.debug byNumber (.codeDoesNotExist id))) :
    classifyLegacyFunctionCallError message contractId methodName blockHeight blockHash =
      some ⟨.contractNotDeployed id, blockHeight, blockHash⟩ := by
  have htext : withoutEnvelopes message = "CompilationError(CodeDoesNotExist".toList ++
      (" \x7b account_id: ".toList ++ (id.debug byNumber ++ " \x7d)".toList)) :=
    h.trans (Debug.tuple_struct _ _ _ _)
  have hexecution : Text.stripPrefix "ExecutionError(".toList
      ("CompilationError(CodeDoesNotExist".toList ++
        (" \x7b account_id: ".toList ++ (id.debug byNumber ++ " \x7d)".toList))) = none := rfl
  have hpanic : Text.stripPrefix "HostError(GuestPanic".toList
      ("CompilationError(CodeDoesNotExist".toList ++
        (" \x7b account_id: ".toList ++ (id.debug byNumber ++ " \x7d)".toList))) = none := rfl
  unfold classifyLegacyFunctionCallError
  rw [htext]
  simp only
  rw [hexecution, hpanic, Text.stripPrefix_append]
  simp only
  rw [parseAccountId_debug byNumber hvalid, Option.getD_some]

private theorem classifyLegacy_methodNotFound
    (h : withoutEnvelopes message =
      Debug.tuple "MethodResolveError" (MethodResolveError.debug .methodNotFound)) :
    classifyLegacyFunctionCallError message contractId methodName blockHeight blockHash =
      some ⟨.methodNotFound contractId (methodName.getD "unknown"), blockHeight, blockHash⟩ := by
  unfold classifyLegacyFunctionCallError
  rw [h]
  rfl

/-- The scanner finds in the text of an error what its value says, whatever strings the
error carries, inside either envelope and outside. -/
theorem FunctionCallError.legacy_agrees {e : FunctionCallError}
    (hknown : ∀ error, e ≠ .unknown error)
    (hvalid : ∀ id, e = .compilationError (.codeDoesNotExist id) → id.Valid) (envelope : Envelope) :
    classifyLegacyFunctionCallError (envelope.embed (e.debug byNumber)) contractId methodName
        blockHeight blockHash =
      classifyFunctionCallError e contractId methodName blockHeight blockHash := by
  have herror := FunctionCallError.withoutEnvelopes_embed byNumber hknown envelope
  have hnone := classifyLegacyFunctionCallError_eq_none contractId methodName blockHeight blockHash
    herror
  cases e with
  | wasmUnknownError => exact hnone rfl rfl rfl rfl (extractContractPanicMessage_cons (by decide) _)
  | evmError => exact hnone rfl rfl rfl rfl (extractContractPanicMessage_cons (by decide) _)
  | compilationError error =>
    cases error with
    | codeDoesNotExist id => exact classifyLegacy_codeDoesNotExist _ _ _ _ _ (hvalid id rfl) herror
    | prepareError error =>
      exact hnone rfl rfl rfl rfl (extractContractPanicMessage_cons (by decide) _)
    | wasmerCompileError msg =>
      exact hnone rfl rfl rfl rfl (extractContractPanicMessage_cons (by decide) _)
    | unknown error =>
      exact hnone rfl rfl rfl rfl (extractContractPanicMessage_cons (by decide) _)
  | linkError msg => exact hnone rfl rfl rfl rfl (extractContractPanicMessage_cons (by decide) _)
  | methodResolveError error =>
    cases error with
    | methodNotFound => exact classifyLegacy_methodNotFound _ _ _ _ herror
    | methodEmptyName =>
      exact hnone rfl rfl rfl rfl (extractContractPanicMessage_cons (by decide) _)
    | methodInvalidSignature =>
      exact hnone rfl rfl rfl rfl (extractContractPanicMessage_cons (by decide) _)
    | unknown error =>
      exact hnone rfl rfl rfl rfl (extractContractPanicMessage_cons (by decide) _)
  | wasmTrap trap => exact hnone rfl rfl rfl rfl (extractContractPanicMessage_cons (by decide) _)
  | hostError error =>
    by_cases hpanic : ∃ panicMsg, error = .guestPanic panicMsg
    · obtain ⟨panicMsg, rfl⟩ := hpanic
      exact classifyLegacy_guestPanic _ _ _ _ _ herror
    · have hother : ∀ panicMsg, error ≠ .guestPanic panicMsg :=
        fun panicMsg heq => hpanic ⟨panicMsg, heq⟩
      have hstructured : classifyFunctionCallError (.hostError error) contractId methodName
          blockHeight blockHash = none := by
        unfold classifyFunctionCallError
        split
        · next heq => cases heq
        · next heq => cases heq
        · next panicMsg heq =>
          cases heq
          exact absurd rfl (hother panicMsg)
        · next heq => cases heq
        · rfl
      rw [hstructured]
      exact hnone rfl (HostError.stripPrefix_guestPanic byNumber hother [')']) rfl rfl
        (extractContractPanicMessage_cons (by decide) _)
  | executionError msg => exact classifyLegacy_executionError _ _ _ _ _ herror
  | unknown error => exact absurd rfl (hknown error)

end

theorem FunctionCallError.legacy_agrees_sample :
    @classifyLegacyFunctionCallError Crates.accepting
        (Envelope.functionCall.embed (FunctionCallError.debug (fun _ => false)
          (.compilationError (.codeDoesNotExist .alice)))) .bob none none none =
      some ⟨.contractNotDeployed .alice, none, none⟩ := by
  let _ := Crates.accepting
  have hknown : ∀ error : UnknownError,
      FunctionCallError.compilationError (.codeDoesNotExist .alice) ≠ .unknown error := by
    rintro _ ⟨⟩
  exact FunctionCallError.legacy_agrees _ .bob none none none hknown (fun _ _ => rfl) .functionCall

end NearKit
