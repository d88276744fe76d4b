import Mathlib.Data.Rat.Floor
import PoolLb.Config
import PoolLb.PendingBuffer

/-!
# Validation of miner requests

`validate_request` (`src/stratum/validator.cpp`) decides which lines of a miner
are forwarded to the pool.  It reads a line with the JSON library glaze; what
that library answers is a parameter of the model, the record `Glaze`, with one
field for each way the source calls it.  Everything the source itself does
(the nesting guard, the lists of methods, the sequencing, the checks of ids and
parameters) is translated.

Doubles that glaze reads are rationals, or nothing if they are not finite.
-/

namespace PoolLb

/-- `ValidationError`; `None` and `Count` are not errors and have no place here. -/
inductive ValidationError where
  | empty
  | tooDeep
  | invalidJson
  | invalidShape
  | invalidMethod
  | invalidInitialMethod
  | invalidSequence
  | invalidId
  | invalidParams
deriving DecidableEq, Repr

/-- `RequestMethod`. -/
inductive RequestMethod where
  | unknown
  | authorize
  | capabilities
  | configure
  | extranonceSubscribe
  | getTransactions
  | multiVersion
  | resume
  | submit
  | subscribe
  | suggestDifficulty
  | suggestTarget
  | updatePassword
  | extension
  | response
deriving DecidableEq, Repr

/-- `ProtocolState`. -/
structure ProtocolState where
  receivedMessage : Bool := false
  subscribed : Bool := false
  authorized : Bool := false
  resumed : Bool := false
deriving DecidableEq, Repr

/-- A `glz::generic` document. -/
inductive JsonValue where
  | null
  | bool (value : Bool)
  | number (value : Option ℚ)
  | string (value : Bytes)
  | array (items : List JsonValue)
  | object (fields : List (Bytes × JsonValue))

/-- `RequestEnvelope`: the raw texts of the members it knows. -/
structure RequestEnvelope where
  id : Option Bytes := none
  method : Option Bytes := none
  params : Option Bytes := none
  result : Option Bytes := none
  error : Option Bytes := none

/-- The JSON library: `none` where a read returns an error. -/
structure Glaze where
  /-- `glz::read_json` into a `glz::generic`. -/
  readGeneric : Bytes → Option JsonValue
  /-- `glz::read<kEnvelopeReadOptions>` into a `RequestEnvelope`. -/
  readEnvelope : Bytes → Option RequestEnvelope
  /-- `glz::read_json` into a `std::string`. -/
  readString : Bytes → Option Bytes
  /-- `glz::read_json` into a `double`. -/
  readDouble : Bytes → Option (Option ℚ)
  /-- `glz::read_json` into a `RawParams` of at most 16 raw values. -/
  readParams : Bytes → Option (List Bytes)

/-- The bytes of an ASCII literal. -/
def ascii (text : String) : Bytes := text.toList.map fun c => c.toNat.toUInt8

def kNewline : UInt8 := 10
def kCarriageReturn : UInt8 := 13
def kQuote : UInt8 := 34
def kBackslash : UInt8 := 92
def kMinus : UInt8 := 45
def kLeftBracket : UInt8 := 91
def kRightBracket : UInt8 := 93
def kLeftBrace : UInt8 := 123
def kRightBrace : UInt8 := 125

def isDigit (byte : UInt8) : Bool := 48 ≤ byte ∧ byte ≤ 57

/-- `kBuiltInMethods`, sorted by name. -/
def kBuiltInMethods : List (Bytes × RequestMethod) :=
  [(ascii "mining.authorize", .authorize),
   (ascii "mining.capabilities", .capabilities),
   (ascii "mining.configure", .configure),
   (ascii "mining.extranonce.subscribe", .extranonceSubscribe),
   (ascii "mining.get_transactions", .getTransactions),
   (ascii "mining.multi_version", .multiVersion),
   (ascii "mining.resume", .resume),
   (ascii "mining.submit", .submit),
   (ascii "mining.subscribe", .subscribe),
   (ascii "mining.suggest_difficulty", .suggestDifficulty),
   (ascii "mining.suggest_target", .suggestTarget),
   (ascii "mining.update_password", .updatePassword)]

def kMaximumGenericParams : Nat := 16
def kMaximumIdentityBytes : Nat := 512
def kMaximumShortStringBytes : Nat := 128
def kMaximumConfigureExtensions : Nat := 32
def kMaximumConfigureOptions : Nat := 64
def kMaximumSubscribeParams : Nat := 8
def kMaximumAuthorizeParams : Nat := 2

namespace Validator

/-- The state of the scan in `within_depth`. -/
structure DepthScan where
  depth : Int := 0
  inString : Bool := false
  escaped : Bool := false

/-- One character of `within_depth`; `none` once the nesting is too deep. -/
def depthStep (maximumDepth : Int) (scan : DepthScan) (character : UInt8) : Option DepthScan :=
  if scan.inString then
    if scan.escaped then some { scan with escaped := false }
    else if character = kBackslash then some { scan with escaped := true }
    else if character = kQuote then some { scan with inString := false }
    else some scan
  else if character = kQuote then some { scan with inString := true }
  else if character = kLeftBrace ∨ character = kLeftBracket then
    if scan.depth + 1 > maximumDepth then none else some { scan with depth := scan.depth + 1 }
  else if (character = kRightBrace ∨ character = kRightBracket) ∧ scan.depth > 0 then
    some { scan with depth := scan.depth - 1 }
  else some scan

/-- `within_depth`. -/
def withinDepth (text : Bytes) (maximumDepth : Int) : Bool :=
  (text.foldlM (depthStep maximumDepth) {}).isSome

/-- Space, tab, newline and carriage return. -/
def isJsonWhitespace (byte : UInt8) : Bool := byte ∈ [32, 9, kNewline, kCarriageReturn]

/-- `trim_json_whitespace`. -/
def trimJsonWhitespace (value : Bytes) : Bytes :=
  ((value.dropWhile isJsonWhitespace).reverse.dropWhile isJsonWhitespace).reverse

/-- `decode_json_string`. -/
def decodeJsonString (json : Glaze) (raw : Bytes) : Option Bytes :=
  let raw := trimJsonWhitespace raw
  if raw.length < 2 ∨ raw.head? ≠ some kQuote ∨ raw.getLast? ≠ some kQuote then none
  else
    let contents := (raw.drop 1).take (raw.length - 2)
    if kBackslash ∈ contents then json.readString raw else some contents

/-- `built_in_method`: the first entry not below the name, if it is the name. -/
def builtInMethod (method : Bytes) : RequestMethod :=
  match kBuiltInMethods.find? fun entry => ¬ entry.1 < method with
  | none => .unknown
  | some entry => if entry.1 = method then entry.2 else .unknown

/-- `allowed_method`. -/
def allowedMethod (method : Bytes) (config : ProtocolConfig) : Option RequestMethod :=
  if builtInMethod method ≠ .unknown then some (builtInMethod method)
  else if method ∈ config.additionalAllowedMethods then some .extension
  else if config.allowUnknownMiningMethods ∧ (ascii "mining.").isPrefixOf method ∧
      method.length ≤ kMaximumProtocolMethodBytes then some .extension
  else none

/-- `allowed_initial_method`. -/
def allowedInitialMethod (method : RequestMethod) (name : Bytes) (config : ProtocolConfig) : Bool :=
  match method with
  | .authorize | .configure | .extranonceSubscribe | .subscribe | .suggestDifficulty | .resume =>
      true
  | .extension => name ∈ config.additionalInitialMethods
  | _ => false

/-- Whether a raw value is read as a number: it starts with a minus or a digit. -/
def startsNumber (raw : Bytes) : Bool :=
  match raw with
  | [] => false
  | first :: _ => first = kMinus ∨ isDigit first

abbrev Check := Except ValidationError Unit

/-- `valid_id`. -/
def validId (json : Glaze) (raw : Bytes) : Check :=
  let raw := trimJsonWhitespace raw
  if raw = ascii "null" ∨ raw.head? = some kQuote then .ok ()
  else if ¬ startsNumber raw then .error .invalidId
  else
    match json.readDouble raw with
    | none => .error .invalidJson
    | some none => .error .invalidId
    | some (some value) => if value = ⌊value⌋ then .ok () else .error .invalidId

/-- `bounded_string`. -/
def boundedString (json : Glaze) (raw : Bytes) (maximum : Nat) (requireNonempty : Bool) : Check :=
  match decodeJsonString json raw with
  | none => .error .invalidParams
  | some value =>
      if value.length > maximum ∨ (requireNonempty ∧ value = []) then .error .invalidParams
      else .ok ()

/-- `strings_only`. -/
def stringsOnly (json : Glaze) (params : List Bytes) (minimum maximum maximumStringBytes : Nat) :
    Check :=
  if params.length < minimum ∨ params.length > maximum then .error .invalidParams
  else params.forM fun param => boundedString json param maximumStringBytes false

/-- One parameter of `primitive_params`. -/
def primitiveParam (json : Glaze) (param : Bytes) : Check :=
  let raw := trimJsonWhitespace param
  if raw = ascii "null" ∨ raw = ascii "true" ∨ raw = ascii "false" then .ok ()
  else if raw.head? = some kQuote then boundedString json raw kMaximumIdentityBytes false
  else if startsNumber raw then
    match json.readDouble raw with
    | none => .error .invalidJson
    | some _ => .ok ()
  else .error .invalidParams

/-- `primitive_params`. -/
def primitiveParams (json : Glaze) (params : List Bytes) (maximum : Nat) : Check :=
  if params.length > maximum then .error .invalidParams
  else params.forM (primitiveParam json)

/-- `configure_params`. -/
def configureParams (json : Glaze) (params : List Bytes) : Check :=
  match params with
  | [] => .ok ()
  | [extensions, options] =>
      match json.readGeneric extensions, json.readGeneric options with
      | some (.array items), some (.object fields) =>
          if items.length > kMaximumConfigureExtensions ∨
              fields.length > kMaximumConfigureOptions then .error .invalidParams
          else .ok ()
      | some _, some _ => .error .invalidParams
      | _, _ => .error .invalidJson
  | _ => .error .invalidParams

/-- `capabilities_params`. -/
def capabilitiesParams (json : Glaze) (params : List Bytes) : Check :=
  match params with
  | [] => .ok ()
  | [capabilities] =>
      match json.readGeneric capabilities with
      | none => .error .invalidJson
      | some (.object fields) =>
          if fields.length ≤ kMaximumConfigureOptions then .ok () else .error .invalidParams
      | some _ => .error .invalidParams
  | _ => .error .invalidParams

/-- The `SuggestDifficulty` case of `valid_params`. -/
def suggestDifficultyParams (json : Glaze) (params : List Bytes) : Check :=
  match params with
  | [param] =>
      let raw := trimJsonWhitespace param
      if startsNumber raw then
        match json.readDouble raw with
        | none => .error .invalidJson
        | some none => .error .invalidParams
        | some (some value) => if value > 0 then .ok () else .error .invalidParams
      else boundedString json raw kMaximumShortStringBytes true
  | _ => .error .invalidParams

/-- `valid_params`. -/
def validParams (json : Glaze) (method : RequestMethod) (params : List Bytes) : Check :=
  if params.length > kMaximumGenericParams then .error .invalidParams
  else
    match method with
    | .authorize =>
        if params = [] then .error .invalidParams
        else primitiveParams json params kMaximumAuthorizeParams
    | .updatePassword => stringsOnly json params 2 2 kMaximumIdentityBytes
    | .submit => stringsOnly json params 5 6 kMaximumIdentityBytes
    | .subscribe | .extranonceSubscribe => primitiveParams json params kMaximumSubscribeParams
    | .suggestTarget => stringsOnly json params 1 1 kMaximumShortStringBytes
    | .suggestDifficulty => suggestDifficultyParams json params
    | .configure => configureParams json params
    | .capabilities => capabilitiesParams json params
    | .getTransactions => stringsOnly json params 1 1 kMaximumIdentityBytes
    | _ => primitiveParams json params kMaximumGenericParams

/-- `valid_sequence`. -/
def validSequence (method : RequestMethod) (state : ProtocolState) : Bool :=
  match method with
  | .submit => (state.subscribed ∧ state.authorized) ∨ state.resumed
  | .getTransactions => state.subscribed
  | .updatePassword => state.authorized
  | _ => true

/-- `document.contains(name)` and `document[name]`. -/
def field (fields : List (Bytes × JsonValue)) (name : String) : Option JsonValue :=
  (fields.find? fun entry => entry.1 = ascii name).map Prod.snd

/-- A line without a method: a response of the miner to the pool. -/
def validateResponse (json : Glaze) (line : Bytes) (state : ProtocolState) :
    Except ValidationError RequestMethod :=
  if ¬ state.receivedMessage then .error .invalidShape
  else
    match json.readGeneric line with
    | none => .error .invalidJson
    | some (.object fields) =>
        if (field fields "result").isNone ∧ (field fields "error").isNone then .error .invalidShape
        else
          match field fields "id" with
          | none => .error .invalidShape
          | some .null | some (.string _) | some (.number _) => .ok .response
          | some _ => .error .invalidId
    | some _ => .error .invalidShape

/-- The id of a request, if it has one. -/
def checkId (json : Glaze) (envelope : RequestEnvelope) : Check :=
  match envelope.id with
  | none => .ok ()
  | some id => validId json id

/-- The parameters of a request; none are an empty list. -/
def checkParams (json : Glaze) (envelope : RequestEnvelope) (method : RequestMethod) : Check :=
  match envelope.params with
  | none => validParams json method []
  | some raw =>
      match json.readParams raw with
      | none => .error .invalidParams
      | some params => validParams json method params

/-- A line with a method, once the method name is decoded. -/
def validateMethod (json : Glaze) (envelope : RequestEnvelope) (name : Bytes)
    (state : ProtocolState) (config : ProtocolConfig) : Except ValidationError RequestMethod :=
  match allowedMethod name config with
  | none => .error .invalidMethod
  | some method =>
      if ¬ state.receivedMessage ∧ ¬ allowedInitialMethod method name config then
        .error .invalidInitialMethod
      else if ¬ validSequence method state then .error .invalidSequence
      else
        match checkId json envelope, checkParams json envelope method with
        | .error error, _ => .error error
        | .ok (), .error error => .error error
        | .ok (), .ok () => .ok method

/-- A carriage return before the newline is not part of the line. -/
def dropCarriageReturn (line : Bytes) : Bytes :=
  if line.getLast? = some kCarriageReturn then line.dropLast else line

/-- `validate_request`: the method of an accepted line.  The `rejected_method`
of a refusal, which only diagnostics read, is left out. -/
def validateRequest (json : Glaze) (line : Bytes) (state : ProtocolState)
    (config : ProtocolConfig) : Except ValidationError RequestMethod :=
  let line := dropCarriageReturn line
  if line = [] then .error .empty
  else if ¬ withinDepth line config.maxJsonDepth then .error .tooDeep
  else
    match trimJsonWhitespace line with
    | [] => .error .invalidJson
    | first :: _ =>
        if first ≠ kLeftBrace then
          match json.readGeneric line with
          | none => .error .invalidJson
          | some _ => .error .invalidShape
        else
          match json.readEnvelope line with
          | none => .error .invalidJson
          | some envelope =>
              match envelope.method with
              | none => validateResponse json line state
              | some raw =>
                  match decodeJsonString json raw with
                  | none =>
                      if (trimJsonWhitespace raw).head? = some kQuote then .error .invalidJson
                      else .error .invalidShape
                  | some name => validateMethod json envelope name state config

/-- `record_request`. -/
def recordRequest (state : ProtocolState) (method : RequestMethod) : ProtocolState :=
  let state := { state with receivedMessage := true }
  match method with
  | .subscribe => { state with subscribed := true }
  | .authorize => { state with authorized := true }
  | .resume => { state with resumed := true }
  | _ => state

@[simp] theorem recordRequest_receivedMessage (state : ProtocolState) (method : RequestMethod) :
    (recordRequest state method).receivedMessage = true := by
  cases method <;> rfl

/-- An accepted response. -/
theorem validateResponse_ok {json : Glaze} {line : Bytes} {state : ProtocolState}
    {method : RequestMethod} (h : validateResponse json line state = .ok method) :
    method = .response ∧ state.receivedMessage = true := by
  unfold validateResponse at h
  split at h
  · cases h
  · rename_i hreceived
    have hreceived : state.receivedMessage = true := by simpa using hreceived
    split at h
    · cases h
    · split at h
      · cases h
      · split at h <;> cases h <;> exact ⟨rfl, hreceived⟩
    · cases h

/-- An accepted request has passed the lists and the sequencing. -/
theorem validateMethod_ok {json : Glaze} {envelope : RequestEnvelope} {name : Bytes}
    {state : ProtocolState} {config : ProtocolConfig} {method : RequestMethod}
    (h : validateMethod json envelope name state config = .ok method) :
    allowedMethod name config = some method ∧
      (state.receivedMessage = false → allowedInitialMethod method name config = true) ∧
      validSequence method state = true := by
  unfold validateMethod at h
  split at h
  · cases h
  · rename_i allowed hallowed
    split at h
    · cases h
    · rename_i hinitial
      split at h
      · cases h
      · rename_i hsequence
        have hmethod : allowed = method := by
          split at h
          · cases h
          · cases h
          · exact Except.ok.inj h
        subst hmethod
        refine ⟨hallowed, fun hfirst => ?_, by simpa using hsequence⟩
        by_contra hnot
        exact hinitial ⟨by simp [hfirst], by simpa using hnot⟩

/-- **An accepted line** is a response, or a request whose decoded name has passed. -/
theorem validateRequest_ok {json : Glaze} {line : Bytes} {state : ProtocolState}
    {config : ProtocolConfig} {method : RequestMethod}
    (h : validateRequest json line state config = .ok method) :
    ∃ envelope, json.readEnvelope (dropCarriageReturn line) = some envelope ∧
      (envelope.method = none ∧ method = .response ∧ state.receivedMessage = true ∨
        ∃ raw name, envelope.method = some raw ∧ decodeJsonString json raw = some name ∧
          allowedMethod name config = some method ∧
          (state.receivedMessage = false → allowedInitialMethod method name config = true) ∧
          validSequence method state = true) := by
  unfold validateRequest at h
  dsimp only at h
  split at h
  · cases h
  split at h
  · cases h
  split at h
  · cases h
  split at h
  · split at h <;> cases h
  split at h
  · cases h
  rename_i envelope henvelope
  refine ⟨envelope, henvelope, ?_⟩
  split at h
  · rename_i hmethod
    exact .inl ⟨hmethod, validateResponse_ok h⟩
  · rename_i raw hraw
    split at h
    · split at h <;> cases h
    · rename_i name hname
      exact .inr ⟨raw, name, hraw, hname, validateMethod_ok h⟩

/-- **The first accepted line opens a session.**  It is never a response, and
its method is one of those allowed initially. -/
theorem validateRequest_initial {json : Glaze} {line : Bytes} {state : ProtocolState}
    {config : ProtocolConfig} {method : RequestMethod}
    (h : validateRequest json line state config = .ok method)
    (hfirst : state.receivedMessage = false) :
    ∃ name, allowedMethod name config = some method ∧
      allowedInitialMethod method name config = true := by
  obtain ⟨_, _, hcase⟩ := validateRequest_ok h
  rcases hcase with ⟨_, _, hreceived⟩ | ⟨_, name, _, _, hallowed, hinitial, _⟩
  · rw [hfirst] at hreceived
    cases hreceived
  · exact ⟨name, hallowed, hinitial hfirst⟩

/-- A name in the table is found there. -/
theorem mem_of_builtInMethod {name : Bytes} {method : RequestMethod}
    (h : builtInMethod name = method) (hknown : method ≠ .unknown) :
    (name, method) ∈ kBuiltInMethods := by
  unfold builtInMethod at h
  split at h
  · exact absurd h.symm hknown
  · rename_i entry hfound
    split at h
    · rename_i hname
      have hmem := List.mem_of_find?_eq_some hfound
      rw [← h, ← hname]
      exact hmem
    · exact absurd h.symm hknown

end Validator

end PoolLb
