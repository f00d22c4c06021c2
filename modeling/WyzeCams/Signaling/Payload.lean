import WyzeCams.Lib.JsonText
import WyzeCams.Lib.PlainObject
import WyzeCams.Lib.Uri

/-! Signaling payloads: the browser's codec in `cam-frontend/public/viewer.html` and the one of
`cameraStreamCapture.js`, which runs in Node. -/
namespace WyzeCams.Signaling
open Json Uri Utf16 Utf8
open PlainObject (optional)

variable {ν : Type}

def b64Encode (value : List Char) : Option (List Char) := btoa (unescape (encodeURIComponent value))

/-- `none` where `atob` or `decodeURIComponent` throws. -/
def b64Decode (value : List Char) : Option (List Char) :=
  let norm := Base64.ofUrl value
  let padded := Base64.pad norm
  (atob padded).bind fun s => decodeURIComponent (escape s)

/-- The first of `JSON.parse(s)` and `JSON.parse(b64Decode(s))` that does not throw. -/
def parseSignalPayload (fmt : NumberFormat ν) (raw : List Char) : Value ν :=
  if raw = [] ∨ raw = ['n', 'u', 'l', 'l'] then .null
  else
    match parse fmt raw with
    | some v => v
    | none =>
      match (b64Decode raw).bind (parse fmt) with
      | some v => v
      | none => .null

def envelope (action recipientClientId : JsString) (messagePayload : List Char) : Value ν :=
  .obj [(js "action", .str action), (js "messagePayload", .str (ofText messagePayload)),
    (js "recipientClientId", .str recipientClientId)]

/-- The text that `StreamSession._send` sends; `isOpen` says whether there is a socket and its
state is `OPEN`. -/
def send (fmt : NumberFormat ν) (isOpen : Bool) (action : JsString) (payload : Value ν)
    (recipientClientId : JsString) : Option (List Char) :=
  if isOpen then
    (b64Encode (stringify fmt [] payload)).map fun b =>
      stringify fmt [] (envelope action recipientClientId b)
  else none

/-- `Buffer.from(text, "utf8").toString("base64")`. -/
def toBase64 (text : List Char) : List Char := Base64.encode (encode text)

def base64Value (c : Char) : Option Nat :=
  if c = '-' then some 62 else if c = '_' then some 63 else Base64.value c

/-- `Buffer.from(s, "base64")`: both alphabets, up to the padding, and other characters are passed
over. -/
def fromBase64 (s : JsString) : Bytes :=
  let chars := s.map fun u => Char.ofNat u.toNat
  Base64.ofValues ((chars.takeWhile fun c => c ≠ '=').filterMap base64Value)

def sendSignal (fmt : NumberFormat ν) (isOpen : Bool) (action : JsString) (payload : Value ν)
    (recipientClientId : JsString) : Option (List Char) :=
  if isOpen then
    some (stringify fmt []
      (envelope action recipientClientId (toBase64 (stringify fmt [] payload))))
  else none

/-- `Buffer.from(v, "base64")`; what it makes of a value that is no string is a parameter. -/
def bufferFrom (other : Value ν → Option Bytes) : Value ν → Option Bytes
  | .str s => some (fromBase64 s)
  | v => other v

section Parse
variable (fmt : NumberFormat ν) (isZero : ν → Bool) (other : Value ν → Option Bytes)

/-- The payload of an envelope, `null` where it is missing or cannot be read. -/
def signalPayload (env : Value ν) : Value ν :=
  match optional (some env) (js "messagePayload") with
  | none => .null
  | some v =>
    if truthy isZero (some v) then
      match (bufferFrom other v).bind fun bs => parse fmt (toText bs) with
      | some payload => payload
      | none => .null
    else .null

/-- What `_parseSignalMessage` makes of an envelope; a property of `null` cannot be read. -/
def signalMessage (env : Value ν) : Option (Value ν × Value ν) :=
  if isNull env then none
  else
    let messageType := optional (some env) (js "messageType")
    match if truthy isZero messageType then messageType else optional (some env) (js "action") with
    | none => none
    | some type =>
      if truthy isZero (some type) then some (type, signalPayload fmt isZero other env) else none

/-- `_parseSignalMessage(raw)`: the type and the payload, or `null`. -/
def parseSignalMessage (raw : List Char) : Option (Value ν × Value ν) :=
  if raw = [] then none else (parse fmt raw).bind (signalMessage fmt isZero other)

end Parse

def forms (t : List Char) : List (List Char) :=
  [t, Base64.toUrl t, t.filter (fun c => c ≠ '='), Base64.toUrl (t.filter fun c => c ≠ '=')]

/-- Both encoders write the base64 of the UTF-8 bytes. -/
theorem b64Encode_eq (value : List Char) : b64Encode value = some (toBase64 value) := by
  rw [b64Encode, unescape_encodeURIComponent, btoa_ofBytes, toBase64]

theorem pad_pad (t : List Char) : Base64.pad (Base64.pad t) = Base64.pad t := by
  have hlen := length_pad t
  rw [Base64.pad, hlen]
  exact List.append_nil _

theorem not_url_of_mem (bs : Bytes) : ∀ c ∈ Base64.symbols bs, c ≠ '-' ∧ c ≠ '_' := by
  intro c hc
  obtain ⟨n, hn, rfl⟩ := Base64.isSymbol_of_mem bs c hc
  exact (Base64.symbol_ne hn).2

theorem not_url_of_mem_pad (bs : Bytes) : ∀ c ∈ Base64.encode bs, c ≠ '-' ∧ c ≠ '_' := by
  intro c hc
  rcases List.mem_append.mp hc with hc | hc
  · exact not_url_of_mem bs c hc
  · rw [List.eq_of_mem_replicate hc]
    decide

/-- Without its padding a base64 text consists of its symbols. -/
theorem filter_encode (bs : Bytes) :
    (Base64.encode bs).filter (fun c => c ≠ '=') = Base64.symbols bs := by
  have hne : ∀ c ∈ Base64.symbols bs, decide (c ≠ '=') = true := by
    intro c hc
    obtain ⟨n, hn, rfl⟩ := Base64.isSymbol_of_mem bs c hc
    exact decide_eq_true (Base64.symbol_ne hn).1
  rw [Base64.encode, Base64.pad, List.filter_append, List.filter_eq_self.mpr hne,
    List.filter_replicate]
  exact List.append_nil _

/-- Every form is brought back to the padded one. -/
theorem pad_ofUrl_forms {bs : Bytes} {t : List Char} (ht : t ∈ forms (Base64.encode bs)) :
    Base64.pad (Base64.ofUrl t) = Base64.encode bs := by
  have hencode := Base64.ofUrl_eq (not_url_of_mem_pad bs)
  have hsymbols := Base64.ofUrl_eq (not_url_of_mem bs)
  simp only [forms, filter_encode, List.mem_cons, List.not_mem_nil, or_false] at ht
  rcases ht with rfl | rfl | rfl | rfl
  · rw [hencode, Base64.encode, pad_pad]
  · rw [Base64.ofUrl_toUrl (not_url_of_mem_pad bs), Base64.encode, pad_pad]
  · rw [hsymbols, Base64.encode]
  · rw [Base64.ofUrl_toUrl (not_url_of_mem bs), Base64.encode]

theorem b64Decode_forms {value t : List Char} (ht : t ∈ forms (toBase64 value)) :
    b64Decode t = some value := by
  rw [b64Decode, pad_ofUrl_forms ht, Base64.encode, atob_pad, Option.bind_some,
    decodeURIComponent_escape]

def Foreign (c : Char) : Prop := isSpace c = false ∧ ¬ IsStart c ∧ c ≠ '+' ∧ c ≠ '/' ∧ c ≠ '='

instance (c : Char) : Decidable (Foreign c) := inferInstanceAs (Decidable (_ ∧ _))

theorem isDigit_bounds {c : Char} (h : Json.isDigit c = true) : 48 ≤ c.toNat ∧ c.toNat ≤ 57 := by
  rw [Json.isDigit, Bool.and_eq_true, decide_eq_true_eq, decide_eq_true_eq] at h
  exact ⟨Char.le_def.mp h.1, Char.le_def.mp h.2⟩

/-- A quarter of the code of a character that JSON starts with is no symbol that JSON starts
with. -/
theorem foreign_symbol {c : Char} (h : IsStart c) :
    c.toNat < 128 ∧ Foreign (Base64.symbol (c.toNat / 4)) := by
  rcases h with rfl | rfl | rfl | rfl | rfl | rfl | rfl | h
  · decide
  · decide
  · decide
  · decide
  · decide
  · decide
  · decide
  · have hb := isDigit_bounds h
    have hquarter : c.toNat / 4 = 12 ∨ c.toNat / 4 = 13 ∨ c.toNat / 4 = 14 := by omega
    refine ⟨by omega, ?_⟩
    rcases hquarter with h | h | h <;> rw [h] <;> decide

theorem head_symbols (b : UInt8) (bs : Bytes) :
    ∃ t, Base64.symbols (b :: bs) = Base64.symbol (b.toNat / 4) :: t := by
  match bs with
  | [] => exact ⟨_, rfl⟩
  | [_] => exact ⟨_, rfl⟩
  | _ :: _ :: _ => exact ⟨_, rfl⟩

theorem toUrl_cons {c : Char} (h : Foreign c) (t : List Char) :
    Base64.toUrl (c :: t) = c :: Base64.toUrl t := by
  rw [Base64.toUrl, List.map_cons, if_neg h.2.2.1, if_neg h.2.2.2.1, Base64.toUrl]

/-- The base64 of a text that starts like JSON, with and without its padding. -/
theorem head_toBase64 {c : Char} (hc : IsStart c) (r : List Char) :
    ∃ d t t', Foreign d ∧ Base64.symbols (encode (c :: r)) = d :: t ∧
      toBase64 (c :: r) = d :: t' := by
  obtain ⟨hlt, hd⟩ := foreign_symbol hc
  have hbyte : (UInt8.ofNat c.toNat).toNat = c.toNat := by
    rw [UInt8.toNat_ofNat']
    omega
  obtain ⟨t, ht⟩ := head_symbols (UInt8.ofNat c.toNat) (encode r)
  rw [hbyte] at ht
  have hbytes : encode (c :: r) = UInt8.ofNat c.toNat :: encode r := by
    rw [encode, List.flatMap_cons, utf8EncodeChar_of_lt hlt]
    rfl
  have hsymbols : Base64.symbols (encode (c :: r)) = Base64.symbol (c.toNat / 4) :: t := by
    rw [hbytes, ht]
  have hencode : ∃ t', toBase64 (c :: r) = Base64.symbol (c.toNat / 4) :: t' := by
    rw [toBase64, Base64.encode, hsymbols]
    exact ⟨_, List.cons_append⟩
  obtain ⟨t', ht'⟩ := hencode
  exact ⟨_, t, t', hd, hsymbols, ht'⟩

/-- Every form of it starts like no JSON. -/
theorem head_forms {c : Char} {r t : List Char} (hc : IsStart c)
    (ht : t ∈ forms (toBase64 (c :: r))) : ∃ d t', t = d :: t' ∧ Foreign d := by
  obtain ⟨d, s, s', hd, hsymbols, hencode⟩ := head_toBase64 hc r
  have hfilter : (toBase64 (c :: r)).filter (fun c => c ≠ '=') = d :: s := by
    rw [toBase64, filter_encode, hsymbols]
  simp only [forms, hfilter, List.mem_cons, List.not_mem_nil, or_false] at ht
  rw [hencode, toUrl_cons hd, toUrl_cons hd] at ht
  rcases ht with rfl | rfl | rfl | rfl
  · exact ⟨d, _, rfl, hd⟩
  · exact ⟨d, _, rfl, hd⟩
  · exact ⟨d, _, rfl, hd⟩
  · exact ⟨d, _, rfl, hd⟩

variable {fmt : NumberFormat ν} {p : Value ν}

/-- The browser reads every form of a payload, although it tries to read the base64 text itself
as JSON first. -/
theorem parseSignalPayload_forms (hp : Proper fmt p) {t : List Char}
    (ht : t ∈ forms (toBase64 (stringify fmt [] p))) : parseSignalPayload fmt t = p := by
  obtain ⟨c, r, htext, hc⟩ := head_write [] [] hp
  have hstart := ht
  rw [stringify, htext] at hstart
  obtain ⟨d, t', rfl, hd⟩ := head_forms hc hstart
  have hraw : ¬ (d :: t' = [] ∨ d :: t' = ['n', 'u', 'l', 'l']) := by
    rintro (h | h)
    · cases h
    · rw [(List.cons.inj h).1] at hd
      exact absurd hd (by decide)
  rw [parseSignalPayload, if_neg hraw, parse_eq_none hd.1 hd.2.1, b64Decode_forms ht,
    Option.bind_some, parse_stringify hp spaces_nil]

theorem values_eq {t : List Char} {l : List Nat} (h : Base64.values t = some l)
    (hurl : ∀ c ∈ t, c ≠ '-' ∧ c ≠ '_') : t.filterMap base64Value = l := by
  induction t generalizing l with
  | nil => exact Option.some.inj h
  | cons c t ih =>
    obtain ⟨h1, h2⟩ := hurl c List.mem_cons_self
    obtain ⟨n, hn, h⟩ := Option.bind_eq_some_iff.mp h
    obtain ⟨l', hl', rfl⟩ := Option.map_eq_some_iff.mp h
    have hvalue : base64Value c = some n := by rw [base64Value, if_neg h1, if_neg h2, hn]
    rw [List.filterMap_cons, hvalue]
    dsimp only
    rw [ih hl' fun d hd => hurl d (List.mem_cons_of_mem c hd)]

theorem map_ofText {t : List Char} (h : ∀ c ∈ t, c.toNat < 128) :
    (ofText t).map (fun u => Char.ofNat u.toNat) = t := by
  induction t with
  | nil => rfl
  | cons c t ih =>
    have hc := h c List.mem_cons_self
    have hmod : c.toNat % 2 ^ 16 = c.toNat := Nat.mod_eq_of_lt (by omega)
    rw [ofText, List.flatMap_cons, List.map_append, ← ofText,
      ih fun d hd => h d (List.mem_cons_of_mem c hd), units, if_pos (by omega), List.map_singleton,
      UInt16.toNat_ofNat', hmod, Char.ofNat_toNat, List.singleton_append]

theorem isAscii_encode (bs : Bytes) : ∀ c ∈ Base64.encode bs, c.toNat < 128 := by
  intro c hc
  rcases List.mem_append.mp hc with hc | hc
  · obtain ⟨n, hn, rfl⟩ := Base64.isSymbol_of_mem bs c hc
    exact (by decide : ∀ n < 64, (Base64.symbol n).toNat < 128) n hn
  · rw [List.eq_of_mem_replicate hc]
    decide

theorem fromBase64_encode (bs : Bytes) : fromBase64 (ofText (Base64.encode bs)) = bs := by
  have hne : ∀ c ∈ Base64.symbols bs, decide (c ≠ '=') = true := by
    intro c hc
    obtain ⟨n, hn, rfl⟩ := Base64.isSymbol_of_mem bs c hc
    exact decide_eq_true (Base64.symbol_ne hn).1
  have htake : (Base64.encode bs).takeWhile (fun c => c ≠ '=') = Base64.symbols bs := by
    rw [Base64.encode, Base64.pad, List.takeWhile_append_of_pos hne, List.takeWhile_replicate]
    exact List.append_nil _
  obtain ⟨l, hl, hbs⟩ := Option.map_eq_some_iff.mp (Base64.values_symbols bs)
  rw [fromBase64, map_ofText (isAscii_encode bs), htake, values_eq hl (not_url_of_mem bs), hbs]

/-- The envelope can be written, and is read back. -/
theorem parse_envelope (action recipientClientId : JsString) (messagePayload : List Char) :
    parse fmt (stringify fmt [] (envelope action recipientClientId messagePayload)) =
      some (envelope action recipientClientId messagePayload) := by
  have hkeys : [js "action", js "messagePayload", js "recipientClientId"].Nodup := by decide
  exact parse_stringify ⟨hkeys, trivial, trivial, trivial, trivial⟩ spaces_nil

section Signal
variable {isZero : ν → Bool} {other : Value ν → Option Bytes}

theorem toBase64_ne_nil (hp : Proper fmt p) : ofText (toBase64 (stringify fmt [] p)) ≠ [] := by
  obtain ⟨c, r, htext, hc⟩ := head_write [] [] hp
  obtain ⟨d, -, t, -, -, hencode⟩ := head_toBase64 hc r
  rw [stringify, htext, hencode, ofText, List.flatMap_cons, units]
  split_ifs <;> exact List.cons_ne_nil _ _

theorem signalPayload_envelope (hp : Proper fmt p) (action recipientClientId : JsString) :
    signalPayload fmt isZero other
      (envelope action recipientClientId (toBase64 (stringify fmt [] p))) = p := by
  have hget : optional (some (envelope (ν := ν) action recipientClientId
      (toBase64 (stringify fmt [] p)))) (js "messagePayload") =
        some (.str (ofText (toBase64 (stringify fmt [] p)))) := rfl
  have htruthy : truthy isZero (some (.str (ofText (toBase64 (stringify fmt [] p))))) = true :=
    decide_eq_true (toBase64_ne_nil hp)
  rw [signalPayload, hget]
  dsimp only
  rw [if_pos htruthy, bufferFrom, Option.bind_some, toBase64, fromBase64_encode, toText_encode,
    parse_stringify hp spaces_nil]

/-- Node reads the envelope that both sides send. -/
theorem parseSignalMessage_envelope (hp : Proper fmt p) {action : JsString} (ha : action ≠ [])
    (recipientClientId : JsString) :
    parseSignalMessage fmt isZero other (stringify fmt []
      (envelope action recipientClientId (toBase64 (stringify fmt [] p)))) =
      some (.str action, p) := by
  have hraw : stringify fmt [] (envelope action recipientClientId
      (toBase64 (stringify fmt [] p))) ≠ [] := List.cons_ne_nil _ _
  have htype : optional (some (envelope (ν := ν) action recipientClientId
      (toBase64 (stringify fmt [] p)))) (js "messageType") = none := rfl
  have haction : optional (some (envelope (ν := ν) action recipientClientId
      (toBase64 (stringify fmt [] p)))) (js "action") = some (.str action) := rfl
  have htruthy : truthy isZero (some (Value.str action)) = true := decide_eq_true ha
  rw [parseSignalMessage, if_neg hraw, parse_envelope, Option.bind_some, signalMessage,
    if_neg (by simp [isNull, envelope]), htype, haction]
  dsimp only
  rw [if_neg (show ¬ truthy isZero (none : Option (Value ν)) = true by simp [truthy])]
  dsimp only
  rw [if_pos htruthy, signalPayload_envelope hp]

/-- The two codecs agree on every payload, and each reads what the other sends. -/
theorem codecs_agree (hp : Proper fmt p) :
    b64Encode (stringify fmt [] p) = some (toBase64 (stringify fmt [] p)) ∧
    (∀ t ∈ forms (toBase64 (stringify fmt [] p)), parseSignalPayload fmt t = p) ∧
    ∀ action recipientClientId, action ≠ [] → ∃ raw,
      send fmt true action p recipientClientId = some raw ∧
      sendSignal fmt true action p recipientClientId = some raw ∧
      parseSignalMessage fmt isZero other raw = some (.str action, p) := by
  refine ⟨b64Encode_eq _, fun t ht => parseSignalPayload_forms hp ht, ?_⟩
  intro action recipientClientId ha
  refine ⟨_, ?_, rfl, parseSignalMessage_envelope hp ha recipientClientId⟩
  rw [send, if_pos rfl, b64Encode_eq, Option.map_some]

end Signal

def decimal : NumberFormat Nat :=
  ⟨Nat.toDigits 10, fun t => t.foldl (fun n c => n * 10 + (c.toNat - 48)) 0⟩

def sample : Value Nat :=
  .obj [(js "sdpMLineIndex", .num 12), (js "mid", .arr [.str [0xE9, 0xD83D], .null])]

theorem codecs_agree_sample :
    let b64 := toBase64 (stringify decimal [] sample)
    b64Encode (stringify decimal [] sample) = some b64 ∧
    (∀ t ∈ forms b64, parseSignalPayload decimal t = sample) ∧
    ∀ action recipientClientId, action ≠ [] → ∃ raw,
      send decimal true action sample recipientClientId = some raw ∧
      sendSignal decimal true action sample recipientClientId = some raw ∧
      parseSignalMessage decimal (fun n => n = 0) (fun _ => none) raw =
        some (.str action, sample) :=
  codecs_agree ⟨by decide, ⟨by decide, by decide⟩, ⟨trivial, trivial, trivial⟩, trivial⟩

example : toBase64 (stringify decimal [] (.str [0xE9])) = "IsOpIg==".toList := by decide

end WyzeCams.Signaling
