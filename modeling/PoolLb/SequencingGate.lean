import Mathlib.Data.List.DropRight
import PoolLb.Validator

/-!
# The order of the lines of a session

`record_request` sets four booleans and `valid_sequence` reads them.  What they stand for
is the history of the session: which requests were accepted so far.  Requests are told
apart by the name of their method, as RFC 8259 reads it; how the name was written, and
what the configuration adds to the lists of methods, does not matter.
-/

namespace PoolLb.Validator

/-! ## The JSON library -/

/-- A reading of texts as JSON values, with what the gate needs to know of RFC 8259. -/
structure JsonReading where
  value : Bytes → Option JsonValue
  /-- White space around a value has no meaning. -/
  value_trim : ∀ text, value (trimJsonWhitespace text) = value text
  /-- A string without escapes is what it shows. -/
  value_plain : ∀ contents read, kBackslash ∉ contents →
    value (kQuote :: contents ++ [kQuote]) = some read → read = .string contents

/-- The method that a text requests, if it is an object that names one. -/
def JsonReading.methodName (rfc : JsonReading) (text : Bytes) : Option Bytes :=
  match rfc.value text with
  | some (.object fields) =>
      match field fields "method" with
      | some (.string name) => some name
      | _ => none
  | _ => none

/-- The library reads texts by `rfc`: it unescapes strings, and the members it puts into
an envelope are those of the object. -/
structure Glaze.Reads (json : Glaze) (rfc : JsonReading) : Prop where
  string : ∀ raw text, json.readString raw = some text → rfc.value raw = some (.string text)
  envelope : ∀ text envelope, json.readEnvelope text = some envelope →
    ∃ fields, rfc.value text = some (.object fields) ∧
      (∀ raw, envelope.method = some raw →
        (field fields "method").isSome ∧ field fields "method" = rfc.value raw) ∧
      (envelope.method = none →
        field fields "method" = none ∨ field fields "method" = some .null)

variable {json : Glaze} {rfc : JsonReading} {config : ProtocolConfig} {state : ProtocolState}
  {line name raw : Bytes} {method : RequestMethod}

/-- White space at the end is trimmed. -/
theorem trimJsonWhitespace_append_right {text : Bytes} {byte : UInt8}
    (hbyte : isJsonWhitespace byte = true) :
    trimJsonWhitespace (text ++ [byte]) = trimJsonWhitespace text := by
  unfold trimJsonWhitespace
  rw [List.dropWhile_append]
  split
  · rename_i hempty
    have hnil : text.dropWhile isJsonWhitespace = [] := by simpa using hempty
    rw [hnil]
    simp [hbyte]
  · rw [List.reverse_append]
    simp [hbyte]

/-- The carriage return before a newline does not change what is read. -/
theorem value_dropCarriageReturn (rfc : JsonReading) (line : Bytes) :
    rfc.value (dropCarriageReturn line) = rfc.value line := by
  unfold dropCarriageReturn
  split
  · rename_i hlast
    obtain ⟨text, htext⟩ := List.getLast?_eq_some_iff.mp hlast
    rw [htext, List.dropLast_concat, ← rfc.value_trim (text ++ _),
      trimJsonWhitespace_append_right (by decide), rfc.value_trim]
  · rfl

/-- A text that begins and ends with a quote has something between them. -/
theorem exists_quoted {text : Bytes} (hlength : ¬ text.length < 2)
    (hhead : text.head? = some kQuote) (hlast : text.getLast? = some kQuote) :
    ∃ contents, text = kQuote :: contents ++ [kQuote] := by
  cases text with
  | nil => cases hhead
  | cons first rest =>
      cases hhead
      have hne : rest ≠ [] := by
        intro hnil
        rw [hnil] at hlength
        exact hlength (by decide)
      rw [List.getLast?_cons_of_ne_nil hne] at hlast
      obtain ⟨contents, hcontents⟩ := List.getLast?_eq_some_iff.mp hlast
      exact ⟨contents, by rw [hcontents]; rfl⟩

/-- A method name that was decoded is the one that was written. -/
theorem decodeJsonString_value (hreads : Glaze.Reads json rfc) {read : JsonValue}
    (hdecoded : decodeJsonString json raw = some name) (hvalue : rfc.value raw = some read) :
    read = .string name := by
  unfold decodeJsonString at hdecoded
  dsimp only at hdecoded
  rw [← rfc.value_trim] at hvalue
  split at hdecoded
  · cases hdecoded
  · rename_i hquoted
    rw [not_or, not_or, not_not, not_not] at hquoted
    obtain ⟨hlength, hhead, hlast⟩ := hquoted
    split at hdecoded
    · have hstring := hreads.string _ _ hdecoded
      rw [hvalue] at hstring
      exact Option.some.inj hstring
    · rename_i hplain
      obtain ⟨contents, hcontents⟩ := exists_quoted hlength hhead hlast
      have htake : ((trimJsonWhitespace raw).drop 1).take ((trimJsonWhitespace raw).length - 2) =
          contents := by
        rw [hcontents]
        simp
      rw [htake] at hplain hdecoded
      rw [hcontents] at hvalue
      rw [← Option.some.inj hdecoded]
      exact rfc.value_plain contents read hplain hvalue

/-- **An accepted line, as RFC 8259 reads it**: a request by the name that has passed, or
a response, which names no method. -/
theorem accepted_line (hreads : Glaze.Reads json rfc)
    (h : validateRequest json line state config = .ok method) :
    (rfc.methodName line = none ∧ method = .response ∧ state.receivedMessage = true) ∨
      ∃ name, rfc.methodName line = some name ∧ allowedMethod name config = some method ∧
        (state.receivedMessage = false → allowedInitialMethod method name config = true) ∧
        validSequence method state = true := by
  obtain ⟨envelope, henvelope, hcase⟩ := validateRequest_ok h
  obtain ⟨fields, hobject, hpresent, habsent⟩ := hreads.envelope _ _ henvelope
  rw [value_dropCarriageReturn] at hobject
  rcases hcase with ⟨hnone, hresponse⟩ | ⟨raw, name, hraw, hname, hpassed⟩
  · refine .inl ⟨?_, hresponse⟩
    unfold JsonReading.methodName
    rcases habsent hnone with hfield | hfield <;> simp [hobject, hfield]
  · obtain ⟨hsome, hfield⟩ := hpresent raw hraw
    obtain ⟨read, hread⟩ := Option.isSome_iff_exists.mp hsome
    rw [hread] at hfield
    have hstring := decodeJsonString_value hreads hname hfield.symm
    refine .inr ⟨name, ?_, hpassed⟩
    unfold JsonReading.methodName
    simp [hobject, hread, hstring]

/-! ## The names behind the methods -/

/-- A method of the table is only ever requested by its own name. -/
theorem name_of_allowedMethod (hallowed : allowedMethod name config = some method)
    (hknown : method ≠ .unknown) (hbuiltIn : method ≠ .extension) :
    (name, method) ∈ kBuiltInMethods := by
  unfold allowedMethod at hallowed
  split at hallowed
  · exact mem_of_builtInMethod (Option.some.inj hallowed) hknown
  · split at hallowed
    · exact absurd (Option.some.inj hallowed).symm hbuiltIn
    · split at hallowed
      · exact absurd (Option.some.inj hallowed).symm hbuiltIn
      · cases hallowed

/-- A name of the table is never taken for another method, whatever the lists say. -/
theorem allowedMethod_of_mem (hmem : (name, method) ∈ kBuiltInMethods) (config : ProtocolConfig) :
    allowedMethod name config = some method := by
  have htable : ∀ entry ∈ kBuiltInMethods,
      builtInMethod entry.1 = entry.2 ∧ entry.2 ≠ .unknown := by decide +kernel
  obtain ⟨hbuiltIn, hknown⟩ := htable _ hmem
  dsimp only at hbuiltIn hknown
  unfold allowedMethod
  rw [hbuiltIn, if_pos hknown]

/-- The requests that may open a session. -/
def openingMethods : List Bytes :=
  [ascii "mining.authorize", ascii "mining.configure", ascii "mining.extranonce.subscribe",
    ascii "mining.subscribe", ascii "mining.suggest_difficulty", ascii "mining.resume"]

/-- Only a name outside the table is an extension. -/
theorem builtInMethod_of_extension (hallowed : allowedMethod name config = some .extension) :
    builtInMethod name = .unknown := by
  have htable : ∀ entry ∈ kBuiltInMethods, entry.2 ≠ .extension := by decide +kernel
  by_contra hknown
  unfold allowedMethod at hallowed
  rw [if_pos hknown] at hallowed
  have hmem := mem_of_builtInMethod (Option.some.inj hallowed) (by decide)
  exact htable _ hmem rfl

/-- A name that may open a session opens it of its own, or is listed and outside the table. -/
theorem opening_name (hallowed : allowedMethod name config = some method)
    (hinitial : allowedInitialMethod method name config = true) :
    name ∈ openingMethods ∨
      name ∈ config.additionalInitialMethods ∧ builtInMethod name = .unknown := by
  have htable : ∀ entry ∈ kBuiltInMethods, (entry.2 = .authorize ∨ entry.2 = .configure ∨
      entry.2 = .extranonceSubscribe ∨ entry.2 = .subscribe ∨ entry.2 = .suggestDifficulty ∨
      entry.2 = .resume) → entry.1 ∈ openingMethods := by decide +kernel
  by_cases hextension : method = .extension
  · subst hextension
    exact .inr ⟨of_decide_eq_true hinitial, builtInMethod_of_extension hallowed⟩
  · have hopening : method = .authorize ∨ method = .configure ∨ method = .extranonceSubscribe ∨
        method = .subscribe ∨ method = .suggestDifficulty ∨ method = .resume := by
      cases method <;> simp_all [allowedInitialMethod]
    have hknown : method ≠ .unknown := by
      intro hunknown
      rw [hunknown] at hinitial
      cases hinitial
    exact .inl (htable _ (name_of_allowedMethod hallowed hknown hextension) hopening)

/-! ## Whole sessions -/

/-- The gate: the state of the protocol, and the lines it has let through, newest first. -/
structure Gate where
  state : ProtocolState := {}
  accepted : List Bytes := []

/-- A line is offered; it is recorded if it is accepted. -/
def Gate.offer (json : Glaze) (config : ProtocolConfig) (gate : Gate) (line : Bytes) : Gate :=
  match validateRequest json line gate.state config with
  | .ok method => ⟨recordRequest gate.state method, line :: gate.accepted⟩
  | .error _ => gate

/-- The gate after a sequence of lines. -/
def Gate.after (json : Glaze) (config : ProtocolConfig) (lines : List Bytes) : Gate :=
  lines.foldl (Gate.offer json config) {}

/-- A request by a name was accepted. -/
def Gate.Has (gate : Gate) (rfc : JsonReading) (name : String) : Prop :=
  ∃ earlier ∈ gate.accepted, rfc.methodName earlier = some (ascii name)

/-- The booleans of the state say what was accepted. -/
structure Gate.Faithful (rfc : JsonReading) (gate : Gate) : Prop where
  received : gate.state.receivedMessage = true ↔ gate.accepted ≠ []
  subscribed : gate.state.subscribed = true → gate.Has rfc "mining.subscribe"
  authorized : gate.state.authorized = true → gate.Has rfc "mining.authorize"
  resumed : gate.state.resumed = true → gate.Has rfc "mining.resume"

variable {gate : Gate}

/-- What was accepted before still was. -/
theorem Gate.Has.cons {name : String} (h : gate.Has rfc name) (state : ProtocolState)
    (line : Bytes) : Gate.Has ⟨state, line :: gate.accepted⟩ rfc name := by
  obtain ⟨earlier, hmem, hname⟩ := h
  exact ⟨earlier, List.mem_cons_of_mem line hmem, hname⟩

/-- What sets a boolean of the state. -/
theorem recordRequest_cases (state : ProtocolState) (method : RequestMethod) :
    ((recordRequest state method).subscribed = true →
      state.subscribed = true ∨ method = .subscribe) ∧
    ((recordRequest state method).authorized = true →
      state.authorized = true ∨ method = .authorize) ∧
    ((recordRequest state method).resumed = true →
      state.resumed = true ∨ method = .resume) := by
  cases method <;> simp [recordRequest]

/-- **A line that is offered** keeps the booleans true to the history. -/
theorem Gate.Faithful.offer (hreads : Glaze.Reads json rfc) (h : gate.Faithful rfc)
    (line : Bytes) : (gate.offer json config line).Faithful rfc := by
  unfold Gate.offer
  split
  · rename_i method haccepted
    obtain ⟨hsubscribed, hauthorized, hresumed⟩ := recordRequest_cases gate.state method
    -- a line that is recorded as one of the three was requested by its name
    have hnamed : ∀ expected : String, method ≠ .response → method ≠ .unknown →
        method ≠ .extension →
        (∀ entry ∈ kBuiltInMethods, entry.2 = method → entry.1 = ascii expected) →
        Gate.Has ⟨recordRequest gate.state method, line :: gate.accepted⟩ rfc expected := by
      intro expected hrequest hknown hextension honly
      rcases accepted_line hreads haccepted with ⟨_, hresponse, _⟩ | ⟨name, hname, hallowed, _⟩
      · exact absurd hresponse hrequest
      · have hentry := honly _ (name_of_allowedMethod hallowed hknown hextension) rfl
        exact ⟨line, List.mem_cons_self, hname.trans (congrArg some hentry)⟩
    refine ⟨by simp, fun hset => ?_, fun hset => ?_, fun hset => ?_⟩
    · rcases hsubscribed hset with hbefore | hmethod
      · exact (h.subscribed hbefore).cons _ line
      · subst hmethod
        exact hnamed _ (by decide) (by decide) (by decide) (by decide +kernel)
    · rcases hauthorized hset with hbefore | hmethod
      · exact (h.authorized hbefore).cons _ line
      · subst hmethod
        exact hnamed _ (by decide) (by decide) (by decide) (by decide +kernel)
    · rcases hresumed hset with hbefore | hmethod
      · exact (h.resumed hbefore).cons _ line
      · subst hmethod
        exact hnamed _ (by decide) (by decide) (by decide) (by decide +kernel)
  · exact h

/-- The booleans are true to the history of every session. -/
theorem Gate.faithful_after (hreads : Glaze.Reads json rfc) (lines : List Bytes) :
    (Gate.after json config lines).Faithful rfc := by
  have hrun : ∀ (lines : List Bytes) (gate : Gate), gate.Faithful rfc →
      (lines.foldl (Gate.offer json config) gate).Faithful rfc := by
    intro lines
    induction lines with
    | nil =>
        intro gate h
        exact h
    | cons line rest ih =>
        intro gate h
        exact ih _ (h.offer hreads line)
  apply hrun
  exact ⟨by simp, by simp, by simp, by simp⟩

/-- **The sequencing gate.**  For every sequence of lines that was offered to a session
and every line that is accepted next: if it is the first, it is a request, not a
response, and by one of the opening names or one that the configuration adds to them and that
is not the name of another method; a `mining.submit` comes after an accepted subscribe and an
accepted authorize, or after an accepted resume; a `mining.get_transactions` after a subscribe
and a `mining.update_password` after an authorize. -/
theorem stratum_sequencing (hreads : Glaze.Reads json rfc) (before : List Bytes)
    (haccepted : validateRequest json line (Gate.after json config before).state config =
      .ok method) :
    let gate := Gate.after json config before
    (gate.accepted = [] → method ≠ .response ∧ ∃ name, rfc.methodName line = some name ∧
        (name ∈ openingMethods ∨
          name ∈ config.additionalInitialMethods ∧ builtInMethod name = .unknown)) ∧
      (rfc.methodName line = some (ascii "mining.submit") →
        gate.Has rfc "mining.subscribe" ∧ gate.Has rfc "mining.authorize" ∨
          gate.Has rfc "mining.resume") ∧
      (rfc.methodName line = some (ascii "mining.get_transactions") →
        gate.Has rfc "mining.subscribe") ∧
      (rfc.methodName line = some (ascii "mining.update_password") →
        gate.Has rfc "mining.authorize") := by
  intro gate
  have hfaithful : gate.Faithful rfc := Gate.faithful_after hreads before
  -- a request by a name of the table has passed the sequencing of its method
  have hsequence : ∀ (name : String) (expected : RequestMethod),
      (ascii name, expected) ∈ kBuiltInMethods → rfc.methodName line = some (ascii name) →
      validSequence expected gate.state = true := by
    intro name expected hmem hname
    rcases accepted_line hreads haccepted with ⟨hnone, _⟩ | ⟨other, hother, hallowed, _, hpassed⟩
    · rw [hname] at hnone
      cases hnone
    · have hsame : other = ascii name := Option.some.inj (hother.symm.trans hname)
      rw [hsame, allowedMethod_of_mem hmem] at hallowed
      rw [Option.some.inj hallowed]
      exact hpassed
  refine ⟨fun hfirst => ?_, fun hname => ?_, fun hname => ?_, fun hname => ?_⟩
  · have hreceived : gate.state.receivedMessage = false := by
      rw [Bool.eq_false_iff]
      exact fun hreceived => hfaithful.received.mp hreceived hfirst
    rcases accepted_line hreads haccepted with ⟨_, _, hbefore⟩ |
        ⟨name, hname, hallowed, hinitial, _⟩
    · rw [hreceived] at hbefore
      cases hbefore
    · have hopening := hinitial hreceived
      refine ⟨?_, name, hname, opening_name hallowed hopening⟩
      intro hresponse
      rw [hresponse] at hopening
      cases hopening
  · have hpassed := hsequence _ .submit (by decide +kernel) hname
    simp only [validSequence, decide_eq_true_eq] at hpassed
    rcases hpassed with ⟨hsubscribed, hauthorized⟩ | hresumed
    · exact .inl ⟨hfaithful.subscribed hsubscribed, hfaithful.authorized hauthorized⟩
    · exact .inr (hfaithful.resumed hresumed)
  · exact hfaithful.subscribed (hsequence _ .getTransactions (by decide +kernel) hname)
  · exact hfaithful.authorized (hsequence _ .updatePassword (by decide +kernel) hname)

/-! ## A reading of three requests -/

/-- Trimming twice is trimming once. -/
theorem trimJsonWhitespace_trim (text : Bytes) :
    trimJsonWhitespace (trimJsonWhitespace text) = trimJsonWhitespace text := by
  have hrtrim : ∀ rest : Bytes, (rest.reverse.dropWhile isJsonWhitespace).reverse =
      rest.rdropWhile isJsonWhitespace := fun _ => rfl
  have hleft : (trimJsonWhitespace text).dropWhile isJsonWhitespace = trimJsonWhitespace text := by
    unfold trimJsonWhitespace
    rw [hrtrim]
    obtain ⟨tail, htail⟩ :=
      List.rdropWhile_prefix isJsonWhitespace (text.dropWhile isJsonWhitespace)
    cases hkept : (text.dropWhile isJsonWhitespace).rdropWhile isJsonWhitespace with
    | nil => rfl
    | cons first rest =>
        -- the first byte is the one at which the left end was cut
        rw [hkept] at htail
        have hfirst : isJsonWhitespace first = false := by
          have hhead := List.head?_dropWhile_not isJsonWhitespace text
          rw [← htail] at hhead
          simpa using hhead
        rw [List.dropWhile_cons, hfirst]
        rfl
  have hright : (trimJsonWhitespace text).rdropWhile isJsonWhitespace =
      trimJsonWhitespace text := List.rdropWhile_idempotent _ _
  calc trimJsonWhitespace (trimJsonWhitespace text)
      = ((trimJsonWhitespace text).dropWhile isJsonWhitespace).rdropWhile isJsonWhitespace := rfl
    _ = (trimJsonWhitespace text).rdropWhile isJsonWhitespace := by rw [hleft]
    _ = trimJsonWhitespace text := hright

/-- A request of a miner: its line, the name and the parameters in it. -/
structure SampleRequest where
  line : Bytes
  name : Bytes
  params : Bytes
deriving DecidableEq

/-- Subscribe, authorize, submit. -/
def sampleRequests : List SampleRequest :=
  [⟨ascii "\x7b\"method\":\"mining.subscribe\",\"params\":[]\x7d",
      ascii "mining.subscribe", ascii "[]"⟩,
    ⟨ascii "\x7b\"method\":\"mining.authorize\",\"params\":[\"w\"]\x7d",
      ascii "mining.authorize", ascii "[\"w\"]"⟩,
    ⟨ascii "\x7b\"method\":\"mining.submit\",\"params\":[\"w\",\"j\",\"e\",\"t\",\"n\"]\x7d",
      ascii "mining.submit", ascii "[\"w\",\"j\",\"e\",\"t\",\"n\"]"⟩]

/-- The request in a text. -/
def sampleRequest (text : Bytes) : Option SampleRequest :=
  sampleRequests.find? fun request => request.line = trimJsonWhitespace text

def sampleQuoted (text : Bytes) : Bytes := kQuote :: text ++ [kQuote]

def sampleUnquoted (text : Bytes) : Bytes := (text.drop 1).dropLast

@[simp] theorem sampleUnquoted_quoted (text : Bytes) :
    sampleUnquoted (sampleQuoted text) = text := by
  simp [sampleUnquoted, sampleQuoted]

/-- There is nothing to trim around quotes. -/
theorem trimJsonWhitespace_quoted (text : Bytes) :
    trimJsonWhitespace (sampleQuoted text) = sampleQuoted text := by
  have hquote : isJsonWhitespace kQuote = false := by decide
  simp [trimJsonWhitespace, sampleQuoted, hquote]

/-- A string is no request. -/
theorem sampleRequest_quoted (text : Bytes) : sampleRequest (sampleQuoted text) = none := by
  unfold sampleRequest
  rw [trimJsonWhitespace_quoted, List.find?_eq_none]
  intro request hrequest hline
  have hhead : ∀ request ∈ sampleRequests, request.line.head? ≠ some kQuote := by decide +kernel
  apply hhead request hrequest
  rw [of_decide_eq_true hline]
  rfl

/-- A reading of the three requests and of strings without escapes. -/
def sampleReading : JsonReading where
  value text :=
    match sampleRequest text with
    | some request => some (.object [(ascii "method", .string request.name)])
    | none =>
        let contents := sampleUnquoted (trimJsonWhitespace text)
        if trimJsonWhitespace text = sampleQuoted contents then some (.string contents) else none
  value_trim text := by
    unfold sampleRequest
    rw [trimJsonWhitespace_trim]
  value_plain contents read hplain hread := by
    have hquoted : kQuote :: contents ++ [kQuote] = sampleQuoted contents := rfl
    rw [hquoted, sampleRequest_quoted] at hread
    simp only [trimJsonWhitespace_quoted, sampleUnquoted_quoted, if_true] at hread
    exact (Option.some.inj hread).symm

/-- A library for them. -/
def sampleGlaze : Glaze where
  readGeneric _ := none
  readEnvelope text := (sampleRequest text).map fun request =>
    { method := some (sampleQuoted request.name), params := some request.params }
  readString _ := none
  readDouble _ := none
  readParams raw :=
    if raw = ascii "[]" then some []
    else if raw = ascii "[\"w\"]" then some [ascii "\"w\""]
    else some [ascii "\"w\"", ascii "\"j\"", ascii "\"e\"", ascii "\"t\"", ascii "\"n\""]

/-- The sample library reads as the sample reading does. -/
theorem sampleGlaze_reads : Glaze.Reads sampleGlaze sampleReading where
  string raw text h := by cases h
  envelope text envelope h := by
    obtain ⟨request, hrequest, henvelope⟩ := Option.map_eq_some_iff.mp h
    subst henvelope
    refine ⟨[(ascii "method", .string request.name)], ?_, fun raw hraw => ?_, fun hnone => ?_⟩
    · simp only [sampleReading, hrequest]
    · cases hraw
      simp [sampleReading, sampleRequest_quoted, trimJsonWhitespace_quoted, field]
    · cases hnone

/-- A submit after subscribe and authorize is accepted, as it must be. -/
theorem stratum_sequencing_submit :
    let lines := sampleRequests.map SampleRequest.line
    let gate := Gate.after sampleGlaze {} (lines.take 2)
    gate.accepted.length = 2 ∧
      validateRequest sampleGlaze (lines.getD 2 []) gate.state {} = .ok .submit ∧
      (gate.Has sampleReading "mining.subscribe" ∧ gate.Has sampleReading "mining.authorize" ∨
        gate.Has sampleReading "mining.resume") := by
  intro lines gate
  have hlength : gate.accepted.length = 2 := by decide +kernel
  have haccepted : validateRequest sampleGlaze (lines.getD 2 []) gate.state {} = .ok .submit := by
    decide +kernel
  have hrequest : sampleRequest (lines.getD 2 []) = sampleRequests[2]? := by
    decide +kernel
  have hname : sampleReading.methodName (lines.getD 2 []) = some (ascii "mining.submit") := by
    simp only [JsonReading.methodName, sampleReading, hrequest]
    rfl
  exact ⟨hlength, haccepted,
    (stratum_sequencing sampleGlaze_reads (lines.take 2) haccepted).2.1 hname⟩

end PoolLb.Validator
