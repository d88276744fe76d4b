import Mathlib.Data.List.TakeWhile
import PoolLb.Endpoint
import PoolLb.Text

/-!
# The texts of endpoints

Every address of a configuration goes through `parse_endpoint`.  Here the function is
written with the string operations of the source, and an access outside the text is a
fault of its own, apart from the `ConfigError` that the source throws.  No text
reaches such a fault, so this is `parseEndpoint`; and the accepted texts are a grammar
of two forms, `[host]:digits` and `host:digits`.

A `std::string` is a `String` with one character for each byte.
-/

namespace PoolLb

/-- How a function on texts ends without a result. -/
inductive TextFault where
  | config (message : String)
  | outOfRange
deriving DecidableEq, Repr

namespace EndpointText

/-- An access that is defined only inside the text. -/
def inside {α : Type} : Option α → Except TextFault α
  | none => .error .outOfRange
  | some value => .ok value

def configError {α : Type} (message : String) : Except TextFault α := .error (.config message)

/-- `std::numeric_limits<unsigned int>::max()`. -/
def kMaximumUnsigned : Nat := 4294967295

/-- `std::from_chars` into an `unsigned int`: the value of the leading digits and
what follows them, unless there are none or the value does not fit. -/
def fromChars (text : List Char) : Option (Nat × List Char) :=
  let digits := text.takeWhile Char.isDigit
  if digits = [] then none
  else if Nat.ofDigitChars 10 digits 0 > kMaximumUnsigned then none
  else some (Nat.ofDigitChars 10 digits 0, text.dropWhile Char.isDigit)

/-- The first half of `parse_endpoint`: host and port text. -/
def splitEndpoint (address : String) : Except TextFault (List Char × List Char) :=
  let text := address.toList
  if text.head? = some '[' then
    match text.idxOf? ']' with
    | none => configError ("invalid bracketed endpoint: " ++ address)
    | some close =>
        if close + 1 ≥ text.length then configError ("invalid bracketed endpoint: " ++ address)
        else do
          let next ← inside text[close + 1]?
          if next ≠ ':' then configError ("invalid bracketed endpoint: " ++ address)
          else
            let host ← inside (Text.substr text 1 (close - 1))
            let port ← inside (Text.substr text (close + 2) text.length)
            .ok (host, port)
  else
    match Text.rfind ':' text with
    | none => configError ("endpoint has no port: " ++ address)
    | some colon =>
        if text.idxOf? ':' ≠ some colon then
          configError ("IPv6 endpoints must use brackets: " ++ address)
        else do
          let host ← inside (Text.substr text 0 colon)
          let port ← inside (Text.substr text (colon + 1) text.length)
          .ok (host, port)

/-- The second half: the port is read. -/
def readPort (address : String) (host portText : List Char) : Except TextFault Endpoint :=
  if host = [] ∨ portText = [] then
    configError ("endpoint requires a host and port: " ++ address)
  else
    match fromChars portText with
    | none => configError ("invalid endpoint port: " ++ address)
    | some (port, rest) =>
        if rest ≠ [] ∨ port = 0 ∨ port > 65535 then
          configError ("invalid endpoint port: " ++ address)
        else .ok { host := String.ofList host, port := port }

/-- `parse_endpoint`. -/
def parseEndpoint (address : String) : Except TextFault Endpoint := do
  let (host, portText) ← splitEndpoint address
  readPort address host portText

end EndpointText

/-! ## The grammar -/

/-- `[host]:digits`. -/
def Bracketed (text host digits : List Char) : Prop :=
  text = '[' :: host ++ ']' :: ':' :: digits ∧ ']' ∉ host

/-- `host:digits`. -/
def Plain (text host digits : List Char) : Prop :=
  text.head? ≠ some '[' ∧ text = host ++ ':' :: digits ∧ ':' ∉ host

/-- A decimal numeral, with any number of leading zeros. -/
def IsNumeral (digits : List Char) (value : Nat) : Prop :=
  digits ≠ [] ∧ (∀ digit ∈ digits, digit.isDigit = true) ∧ Nat.ofDigitChars 10 digits 0 = value

/-- The texts of an endpoint. -/
def EndpointGrammar (address : String) (endpoint : Endpoint) : Prop :=
  ∃ digits, (Bracketed address.toList endpoint.host.toList digits ∨
      Plain address.toList endpoint.host.toList digits) ∧
    endpoint.host.toList ≠ [] ∧ IsNumeral digits endpoint.port ∧
    1 ≤ endpoint.port ∧ endpoint.port ≤ 65535

namespace EndpointText

/-! ## Splitting -/

/-- A text of the bracketed form is split at its first `]`. -/
theorem splitEndpoint_bracketed {address : String} {host port : List Char}
    (h : Bracketed address.toList host port) : splitEndpoint address = .ok (host, port) := by
  obtain ⟨htext, hfree⟩ := h
  have hclose : ']' ∉ '[' :: host := by
    intro hmem
    rcases List.mem_cons.mp hmem with hhead | hhost
    · exact absurd hhead (by decide)
    · exact hfree hhost
  have hfind := Text.idxOf?_append_cons hclose (':' :: port)
  have hlength : address.toList.length = host.length + port.length + 3 := by
    rw [htext]
    simp only [List.length_append, List.length_cons]
    omega
  have hnext : address.toList[host.length + 1 + 1]? = some ':' := by
    rw [htext, List.getElem?_append_right (by simp)]
    simp
  have hhost : Text.substr address.toList 1 (host.length + 1 - 1) = some host := by
    have hcut := Text.substr_append ['['] (host ++ ']' :: ':' :: port) host.length
    rw [List.take_left] at hcut
    rw [htext]
    exact hcut
  have hport : Text.substr address.toList (host.length + 1 + 2) address.toList.length =
      some port := by
    have hcut := Text.substr_append ('[' :: host ++ [']', ':']) port address.toList.length
    have hall : port.take address.toList.length = port := List.take_of_length_le (by omega)
    rw [hall] at hcut
    have hsame : address.toList = '[' :: host ++ [']', ':'] ++ port := by
      rw [htext, List.append_assoc]
      rfl
    have hplace : ('[' :: host ++ [']', ':']).length = host.length + 1 + 2 := by simp
    rw [hplace, ← hsame] at hcut
    exact hcut
  rw [← htext] at hfind
  have hhead : address.toList.head? = some '[' := by
    rw [htext]
    rfl
  unfold splitEndpoint
  rw [if_pos hhead, hfind]
  dsimp only
  rw [List.length_cons, if_neg (by omega), hnext, hhost, hport]
  rfl

/-- A text of the plain form is split at its only colon. -/
theorem splitEndpoint_plain {address : String} {host port : List Char}
    (h : Plain address.toList host port) (hport : ':' ∉ port) :
    splitEndpoint address = .ok (host, port) := by
  obtain ⟨hhead, htext, hfree⟩ := h
  have hlast := Text.rfind_append host hport
  have hfirst := Text.idxOf?_append_cons hfree port
  have hcutHost : Text.substr address.toList 0 host.length = some host := by
    have hcut := Text.substr_append [] (host ++ ':' :: port) host.length
    rw [List.take_left, List.nil_append] at hcut
    rw [htext]
    exact hcut
  have hcutPort : Text.substr address.toList (host.length + 1) address.toList.length =
      some port := by
    have hcut := Text.substr_append (host ++ [':']) port address.toList.length
    have hall : port.take address.toList.length = port := by
      refine List.take_of_length_le ?_
      rw [htext, List.length_append, List.length_cons]
      omega
    have hsame : address.toList = host ++ [':'] ++ port := by
      rw [htext, List.append_assoc]
      rfl
    rw [hall, List.length_append, ← hsame] at hcut
    exact hcut
  rw [← htext] at hlast hfirst
  unfold splitEndpoint
  rw [if_neg hhead, hlast]
  dsimp only
  rw [hfirst, if_neg (by simp), hcutHost, hcutPort]
  rfl

/-- Every other text is refused: no access leaves the text. -/
theorem splitEndpoint_cases (address : String) :
    (∃ host port, splitEndpoint address = .ok (host, port) ∧
      (Bracketed address.toList host port ∨ Plain address.toList host port ∧ ':' ∉ port)) ∨
    ∃ message, splitEndpoint address = .error (.config message) := by
  by_cases hhead : address.toList.head? = some '['
  · cases hclose : address.toList.idxOf? ']' with
    | none =>
        refine .inr ⟨"invalid bracketed endpoint: " ++ address, ?_⟩
        unfold splitEndpoint
        rw [if_pos hhead, hclose]
        rfl
    | some close =>
        obtain ⟨before, after, htext, hfree, hlength⟩ := Text.exists_of_idxOf? hclose
        cases before with
        | nil =>
            rw [htext] at hhead
            exact absurd (Option.some.inj hhead) (by decide)
        | cons first host =>
            have hfirst : first = '[' := by
              rw [htext] at hhead
              exact Option.some.inj hhead
            have hhost : ']' ∉ host := fun h => hfree (List.mem_cons_of_mem _ h)
            by_cases hcolon : ∃ port, after = ':' :: port
            · obtain ⟨port, hport⟩ := hcolon
              have hform : Bracketed address.toList host port :=
                ⟨by rw [htext, hfirst, hport], hhost⟩
              exact .inl ⟨host, port, splitEndpoint_bracketed hform, .inl hform⟩
            · refine .inr ⟨"invalid bracketed endpoint: " ++ address, ?_⟩
              have hnext : address.toList[close + 1]? = after.head? := by
                rw [htext, List.getElem?_append_right (by omega), ← hlength, List.head?_eq_getElem?]
                simp
              unfold splitEndpoint
              rw [if_pos hhead, hclose]
              dsimp only
              split
              · rfl
              · rename_i hinside
                rw [hnext]
                cases after with
                | nil =>
                    rw [htext, ← hlength] at hinside
                    simp at hinside
                | cons next rest =>
                    have hother : next ≠ ':' := fun h => hcolon ⟨rest, by rw [h]⟩
                    simp only [List.head?_cons, inside, bind, Except.bind, if_pos hother]
                    rfl
  · cases hcolon : Text.rfind ':' address.toList with
    | none =>
        refine .inr ⟨"endpoint has no port: " ++ address, ?_⟩
        unfold splitEndpoint
        rw [if_neg hhead, hcolon]
        rfl
    | some colon =>
        obtain ⟨host, port, htext, hport, hlength⟩ := Text.exists_of_rfind hcolon
        by_cases hfree : ':' ∈ host
        · refine .inr ⟨"IPv6 endpoints must use brackets: " ++ address, ?_⟩
          have hearlier : address.toList.idxOf? ':' ≠ some colon := by
            rw [htext, ← hlength]
            exact fun h => Text.idxOf?_eq_length_iff.mp h hfree
          unfold splitEndpoint
          rw [if_neg hhead, hcolon]
          dsimp only
          rw [if_pos hearlier]
          rfl
        · have hform : Plain address.toList host port := ⟨hhead, htext, hfree⟩
          exact .inl ⟨host, port, splitEndpoint_plain hform hport, .inr ⟨hform, hport⟩⟩

/-! ## Ports -/

/-- A colon is no digit. -/
theorem colon_not_mem_of_digits {digits : List Char}
    (h : ∀ digit ∈ digits, digit.isDigit = true) : ':' ∉ digits :=
  fun hmem => absurd (h ':' hmem) (by decide)

/-- `from_chars` reads a numeral that fits. -/
theorem fromChars_of_isNumeral {digits : List Char} {value : Nat} (h : IsNumeral digits value)
    (hfits : value ≤ kMaximumUnsigned) : fromChars digits = some (value, []) := by
  obtain ⟨hsome, hdigits, hvalue⟩ := h
  have hall : digits.takeWhile Char.isDigit = digits := List.takeWhile_eq_self_iff.mpr hdigits
  have hrest : digits.dropWhile Char.isDigit = [] := List.dropWhile_eq_nil_iff.mpr hdigits
  unfold fromChars
  dsimp only
  rw [hall, hrest, if_neg hsome, hvalue, if_neg (by omega)]

/-- What `from_chars` reads to the end is a numeral. -/
theorem isNumeral_of_fromChars {text : List Char} {value : Nat}
    (h : fromChars text = some (value, [])) : IsNumeral text value := by
  unfold fromChars at h
  dsimp only at h
  split at h
  · cases h
  · rename_i hsome
    split at h
    · cases h
    · have hpair := Option.some.inj h
      have hrest : text.dropWhile Char.isDigit = [] := congrArg Prod.snd hpair
      have hdigits := List.dropWhile_eq_nil_iff.mp hrest
      have hall : text.takeWhile Char.isDigit = text := List.takeWhile_eq_self_iff.mpr hdigits
      rw [hall] at hsome hpair
      exact ⟨hsome, hdigits, congrArg Prod.fst hpair⟩

/-- The second half of `parse_endpoint` accepts the ports from 1 to 65535. -/
theorem readPort_ok_iff {address : String} {host port : List Char} {endpoint : Endpoint} :
    readPort address host port = .ok endpoint ↔
      endpoint.host.toList = host ∧ host ≠ [] ∧ IsNumeral port endpoint.port ∧
        1 ≤ endpoint.port ∧ endpoint.port ≤ 65535 := by
  unfold readPort
  constructor
  · intro hok
    split at hok
    · cases hok
    · rename_i hparts
      split at hok
      · cases hok
      · rename_i value rest hnumber
        split at hok
        · cases hok
        · rename_i hrange
          have hrest : rest = [] := by
            by_contra hnot
            exact hrange (.inl hnot)
          have hnumeral := isNumeral_of_fromChars (hrest ▸ hnumber)
          cases hok
          refine ⟨String.toList_ofList, fun hnil => hparts (.inl hnil), hnumeral, ?_, ?_⟩
          · have hzero : value ≠ 0 := fun hnil => hrange (.inr (.inl hnil))
            show 1 ≤ value
            omega
          · have hmost : ¬ value > 65535 := fun hbig => hrange (.inr (.inr hbig))
            show value ≤ 65535
            omega
  · intro hform
    obtain ⟨hhost, hsome, hnumeral, hpos, hmost⟩ := hform
    have hfits : endpoint.port ≤ kMaximumUnsigned := Nat.le_trans hmost (by decide)
    have hparts : ¬ (host = [] ∨ port = []) := by
      intro hnil
      rcases hnil with hhostNil | hportNil
      · exact hsome hhostNil
      · exact hnumeral.1 hportNil
    have hrange : ¬ (([] : List Char) ≠ [] ∨ endpoint.port = 0 ∨ endpoint.port > 65535) := by
      intro hout
      rcases hout with hrest | hzero | hbig
      · exact hrest rfl
      · omega
      · omega
    rw [if_neg hparts, fromChars_of_isNumeral hnumeral hfits]
    dsimp only
    rw [if_neg hrange, ← hhost, String.ofList_toList]

/-- The port is read or refused; no other fault occurs. -/
theorem readPort_cases (address : String) (host port : List Char) :
    (∃ endpoint, readPort address host port = .ok endpoint) ∨
      ∃ message, readPort address host port = .error (.config message) := by
  unfold readPort
  split
  · exact .inr ⟨_, rfl⟩
  · split
    · exact .inr ⟨_, rfl⟩
    · split
      · exact .inr ⟨_, rfl⟩
      · exact .inl ⟨_, rfl⟩

/-- Once the text is split, all depends on the port. -/
theorem parseEndpoint_of_split {address : String} {host port : List Char}
    (h : splitEndpoint address = .ok (host, port)) :
    parseEndpoint address = readPort address host port := by
  unfold parseEndpoint
  rw [h]
  rfl

/-- The grammar is what the two halves accept. -/
theorem parseEndpoint_iff (address : String) (endpoint : Endpoint) :
    parseEndpoint address = .ok endpoint ↔ EndpointGrammar address endpoint := by
  constructor
  · intro hok
    rcases splitEndpoint_cases address with ⟨host, port, hsplit, hform⟩ | ⟨message, hsplit⟩
    · obtain ⟨hhost, hsome, hport⟩ :=
        readPort_ok_iff.mp ((parseEndpoint_of_split hsplit).symm.trans hok)
      refine ⟨port, ?_, hhost ▸ hsome, hport⟩
      rw [hhost]
      exact hform.imp id And.left
    · unfold parseEndpoint at hok
      rw [hsplit] at hok
      cases hok
  · intro hgrammar
    obtain ⟨digits, hform, hsome, hport⟩ := hgrammar
    have hsplit : splitEndpoint address = .ok (endpoint.host.toList, digits) := by
      rcases hform with hbracketed | hplain
      · exact splitEndpoint_bracketed hbracketed
      · exact splitEndpoint_plain hplain (colon_not_mem_of_digits hport.1.2.1)
    rw [parseEndpoint_of_split hsplit]
    exact readPort_ok_iff.mpr ⟨rfl, hsome, hport⟩

/-- Whatever is not accepted is a `ConfigError`. -/
theorem parseEndpoint_cases (address : String) :
    (∃ endpoint, parseEndpoint address = .ok endpoint) ∨
      ∃ message, parseEndpoint address = .error (.config message) := by
  rcases splitEndpoint_cases address with ⟨host, port, hsplit, _⟩ | ⟨message, hsplit⟩
  · rw [parseEndpoint_of_split hsplit]
    exact readPort_cases address host port
  · refine .inr ⟨message, ?_⟩
    unfold parseEndpoint
    rw [hsplit]
    rfl

/-! ## The parser of the model -/

theorem idxOf?_eq_findIdx? (symbol : Char) (text : List Char) :
    text.idxOf? symbol = text.findIdx? (· = symbol) := rfl

/-- The two ways to split a text agree, also in what they throw. -/
theorem splitEndpoint_eq (address : String) :
    splitEndpoint address = (PoolLb.splitEndpoint address).mapError .config := by
  unfold splitEndpoint PoolLb.splitEndpoint
  by_cases hhead : address.toList.head? = some '['
  · simp only [if_pos hhead, ← idxOf?_eq_findIdx?]
    cases hclose : address.toList.idxOf? ']' with
    | none => rfl
    | some close =>
        dsimp only
        by_cases hinside : close + 1 ≥ address.toList.length
        · have hnext : address.toList[close + 1]? = none := List.getElem?_eq_none hinside
          rw [if_pos hinside, hnext]
          rfl
        · rw [if_neg hinside]
          cases hnext : address.toList[close + 1]? with
          | none => exact absurd (List.getElem?_eq_none_iff.mp hnext) hinside
          | some next =>
              by_cases hcolon : next = ':'
              · have hhost : Text.substr address.toList 1 (close - 1) =
                    some ((address.toList.take close).drop 1) := by
                  unfold Text.substr
                  rw [if_pos (by omega), List.drop_take]
                rw [hhost, Text.substr_rest (by omega), hcolon]
                rfl
              · have hother : ¬ some next = some ':' := fun h => hcolon (Option.some.inj h)
                rw [if_neg hother]
                simp only [inside, bind, Except.bind, ne_eq, if_pos hcolon]
                rfl
  · simp only [if_neg hhead, ← idxOf?_eq_findIdx?]
    cases hcolon : Text.rfind ':' address.toList with
    | none =>
        have hnone := List.idxOf?_eq_none_iff.mpr (Text.rfind_eq_none_iff.mp hcolon)
        rw [hnone]
        rfl
    | some colon =>
        obtain ⟨host, port, htext, hport, hlength⟩ := Text.exists_of_rfind hcolon
        cases hfirst : address.toList.idxOf? ':' with
        | none =>
            have hmem : ':' ∈ address.toList := by
              rw [htext]
              simp
            exact absurd hmem (List.idxOf?_eq_none_iff.mp hfirst)
        | some first =>
            obtain ⟨before, after, hsplit, hfree, hplace⟩ := Text.exists_of_idxOf? hfirst
            have hafter : address.toList.drop (first + 1) = after := by
              rw [hsplit, ← hplace]
              simp
            dsimp only
            rw [hafter]
            by_cases hsame : first = colon
            · have hends : before = host ∧ ':' :: after = ':' :: port :=
                List.append_inj (hsplit.symm.trans htext) (by omega)
              have hunique : ':' ∉ after := by
                rw [(List.cons.inj hends.2).2]
                exact hport
              have hinside : colon + 1 ≤ address.toList.length := by
                rw [htext, List.length_append, List.length_cons]
                omega
              rw [if_neg (by simp [hsame]), if_neg hunique, ← hafter, hsame,
                Text.substr_rest hinside]
              rfl
            · have hagain : ':' ∈ after := by
                by_contra hunique
                have hlast := Text.rfind_append before hunique
                rw [← hsplit, hcolon, hplace] at hlast
                exact hsame (Option.some.inj hlast).symm
              have hother : some first ≠ some colon := fun h => hsame (Option.some.inj h)
              rw [if_pos hother, if_pos hagain]
              rfl

/-- Reading digits one by one is reading the numeral. -/
theorem foldl_eq_ofDigitChars (digits : List Char) (start : Nat) :
    digits.foldl (fun value digit => value * 10 + (digit.toNat - '0'.toNat)) start =
      Nat.ofDigitChars 10 digits start := by
  induction digits generalizing start with
  | nil => rfl
  | cons digit rest ih =>
      rw [List.foldl_cons, ih, Nat.ofDigitChars_cons, Nat.mul_comm start 10]

/-- `from_chars` reports a port that does not fit, and the model reads it: both refuse it. -/
theorem readPort_eq (address : String) (host port : List Char) :
    readPort address host port =
      (if host = [] ∨ port = [] then
        Except.error ("endpoint requires a host and port: " ++ address)
      else
        match parsePort port with
        | none => .error ("invalid endpoint port: " ++ address)
        | some value =>
            if value = 0 ∨ value > 65535 then .error ("invalid endpoint port: " ++ address)
            else .ok { host := String.ofList host, port := value }).mapError TextFault.config := by
  unfold readPort parsePort
  by_cases hparts : host = [] ∨ port = []
  · rw [if_pos hparts, if_pos hparts]
    rfl
  · rw [if_neg hparts, if_neg hparts, foldl_eq_ofDigitChars]
    by_cases hdigits : ∀ digit ∈ port, digit.isDigit = true
    · rw [if_pos (List.all_eq_true.mpr hdigits)]
      dsimp only
      have hnumeral : IsNumeral port (Nat.ofDigitChars 10 port 0) :=
        ⟨fun h => hparts (.inr h), hdigits, rfl⟩
      by_cases hfits : Nat.ofDigitChars 10 port 0 ≤ kMaximumUnsigned
      · rw [fromChars_of_isNumeral hnumeral hfits]
        by_cases hrange : Nat.ofDigitChars 10 port 0 = 0 ∨ Nat.ofDigitChars 10 port 0 > 65535
        · rw [if_pos hrange]
          dsimp only
          rw [if_pos (.inr hrange)]
          rfl
        · rw [if_neg hrange]
          dsimp only
          rw [if_neg (by simpa using hrange)]
          rfl
      · have hnone : fromChars port = none := by
          cases hread : fromChars port with
          | none => rfl
          | some read =>
              unfold fromChars at hread
              rw [List.takeWhile_eq_self_iff.mpr hdigits] at hread
              rw [if_neg hnumeral.1, if_pos (by omega)] at hread
              cases hread
        have hbig : Nat.ofDigitChars 10 port 0 = 0 ∨ Nat.ofDigitChars 10 port 0 > 65535 := by
          right
          unfold kMaximumUnsigned at hfits
          omega
        rw [hnone, if_pos hbig]
        rfl
    · rw [if_neg (fun h => hdigits (List.all_eq_true.mp h))]
      dsimp only
      cases hread : fromChars port with
      | none => rfl
      | some read =>
          obtain ⟨value, rest⟩ := read
          have hrest : rest ≠ [] := by
            intro hnil
            exact hdigits (isNumeral_of_fromChars (hnil ▸ hread)).2.1
          dsimp only
          rw [if_pos (.inl hrest)]
          rfl

/-- **No text leads outside itself**: the parser with checked accesses is the parser of the
model. -/
theorem parseEndpoint_eq (address : String) :
    parseEndpoint address = (PoolLb.parseEndpoint address).mapError .config := by
  unfold parseEndpoint PoolLb.parseEndpoint
  rw [splitEndpoint_eq]
  cases PoolLb.splitEndpoint address with
  | error message => rfl
  | ok parts => exact readPort_eq address parts.1 parts.2

/-- **The parser accepts exactly its grammar**, refuses every other text with a
`ConfigError`, and reads one endpoint from a text at most. -/
theorem endpoint_grammar_exact (address : String) :
    (∀ endpoint, parseEndpoint address = .ok endpoint ↔ EndpointGrammar address endpoint) ∧
    ((¬ ∃ endpoint, EndpointGrammar address endpoint) →
      ∃ message, parseEndpoint address = .error (.config message)) ∧
    parseEndpoint address ≠ .error .outOfRange ∧
    (∀ endpoint other, EndpointGrammar address endpoint → EndpointGrammar address other →
      endpoint = other) ∧
    parseEndpoint address = (PoolLb.parseEndpoint address).mapError .config := by
  refine ⟨parseEndpoint_iff address, ?_, ?_, ?_, parseEndpoint_eq address⟩
  · intro hnone
    rcases parseEndpoint_cases address with ⟨endpoint, hok⟩ | hrefused
    · exact absurd ⟨endpoint, (parseEndpoint_iff address endpoint).mp hok⟩ hnone
    · exact hrefused
  · intro houtside
    rcases parseEndpoint_cases address with ⟨endpoint, hok⟩ | ⟨message, hrefused⟩
    · rw [hok] at houtside
      cases houtside
    · rw [hrefused] at houtside
      cases houtside
  · intro endpoint other hendpoint hother
    have hread := (parseEndpoint_iff address endpoint).mpr hendpoint
    rw [(parseEndpoint_iff address other).mpr hother] at hread
    exact (Except.ok.inj hread).symm

/-- An IPv6 address with a padded port, and a text with two colons outside brackets. -/
theorem endpoint_grammar_exact_ipv6 :
    EndpointGrammar "[::1]:03333" { host := "::1", port := 3333 } ∧
      ∃ message, parseEndpoint "::1:3333" = .error (.config message) := by
  refine ⟨((endpoint_grammar_exact "[::1]:03333").1 _).mp (by decide +kernel),
    (endpoint_grammar_exact "::1:3333").2.1 ?_⟩
  intro hsome
  obtain ⟨endpoint, hendpoint⟩ := hsome
  have hread := (parseEndpoint_iff "::1:3333" endpoint).mpr hendpoint
  have hrefused : parseEndpoint "::1:3333" =
      .error (.config "IPv6 endpoints must use brackets: ::1:3333") := by decide +kernel
  rw [hrefused] at hread
  cases hread

end EndpointText

end PoolLb
