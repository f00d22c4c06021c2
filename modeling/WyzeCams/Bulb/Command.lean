import WyzeCams.Bulb.Cipher
import WyzeCams.Lib.JsonWritten

/-! The request to a local bulb: `localBulbCommand` of `src/src/index.js`. -/
namespace WyzeCams.Bulb
open Json Utf16
open Signaling (decimal)
open Utf8 (Bytes)

/-- What `axios.post` ends with: an answer, an error with a response, or another error. -/
inductive Posted where
  | response
  | httpError
  | error

/-- The outer calls; `π` are the values of a property. -/
inductive Call (π : Type) where
  | post (url body : JsString)
  | runActionList (deviceMac deviceModel propertyId : JsString) (propertyValue : π)
      (actionKey : JsString)
  deriving DecidableEq

/-- `text.replace(/\\\\/g, "\\")`: each pair of backslashes becomes one. -/
def collapseBackslashes : List Char → List Char
  | [] => []
  | [c] => [c]
  | c :: d :: t =>
    if c = '\\' ∧ d = '\\' then '\\' :: collapseBackslashes t
    else c :: collapseBackslashes (d :: t)

def characteristics (mac : JsString) (ts : Nat) (propertyId pvalue : JsString) : Value Nat :=
  .obj [(js "mac", .str mac), (js "index", .str (js "1")), (js "ts", .num ts),
    (js "plist", .arr [.obj [(js "pid", .str propertyId), (js "pvalue", .str pvalue)]])]

def payload (characteristicsEnc : List Char) : Value Nat :=
  .obj [(js "request", .str (js "set_status")), (js "isSendQueue", .num 0),
    (js "characteristics", .str (ofText characteristicsEnc))]

/-- The body for a text of characteristics; `none` where the encryption throws. -/
def payloadStr (cipher : Cipher) (deviceEnr characteristicsStr : JsString) : Option (List Char) :=
  (wyzeEncrypt cipher deviceEnr characteristicsStr).map fun characteristicsEnc =>
    collapseBackslashes (stringify decimal [] (payload characteristicsEnc))

/-- The calls of `localBulbCommand` at the time `now`, for an end of the post; `none` where it
throws before. `toUpperCase` is that of strings, and `toString` is `String(propertyValue)`. -/
def localBulbCommand {π : Type} (toUpperCase : JsString → JsString) (toString : π → JsString)
    (cipher : Cipher) (deviceMac deviceModel deviceEnr deviceIp propertyId : JsString)
    (propertyValue : π) (actionKey : JsString) (now : Nat) (posted : Posted) :
    Option (List (Call π)) :=
  let characteristicsStr := ofText (stringify decimal []
    (characteristics (toUpperCase deviceMac) now propertyId (toString propertyValue)))
  (payloadStr cipher deviceEnr characteristicsStr).map fun body =>
    let url := js "http://" ++ deviceIp ++ js ":88/device_request"
    let post := Call.post url (ofText body)
    match posted with
    | .httpError =>
      [post, .runActionList deviceMac deviceModel propertyId propertyValue actionKey]
    | _ => [post]

def Plain (c : Char) : Prop := c ≠ '"' ∧ c ≠ '\\' ∧ 32 ≤ c.toNat ∧ c.toNat < 128

theorem plain_symbol : ∀ n < 64, Plain (Base64.symbol n) := by
  unfold Plain
  decide

theorem plain_encode (bs : Bytes) : ∀ c ∈ Base64.encode bs, Plain c := by
  intro c hc
  rw [Base64.encode, Base64.pad] at hc
  rcases List.mem_append.mp hc with hc | hc
  · obtain ⟨n, hn, rfl⟩ := Base64.isSymbol_of_mem bs c hc
    exact plain_symbol n hn
  · rw [List.eq_of_mem_replicate hc]
    unfold Plain
    decide

theorem quoteChar_plain {c : Char} (h : Plain c) : quoteChar c = [c] := by
  obtain ⟨hquote, hslash, hlow, -⟩ := h
  have hne : ∀ n < 32, c ≠ Char.ofNat n := by
    intro n hn heq
    have hvalid : n.isValidChar := Or.inl (by omega)
    rw [heq, toNat_ofNat_of_valid hvalid] at hlow
    omega
  rw [quoteChar, if_neg hquote, if_neg hslash, if_neg (hne 8 (by omega)), if_neg (hne 9 (by omega)),
    if_neg (hne 10 (by omega)), if_neg (hne 12 (by omega)), if_neg (hne 13 (by omega)),
    if_neg (by omega)]

theorem collapse_cons {c : Char} (h : c ≠ '\\') (t : List Char) :
    collapseBackslashes (c :: t) = c :: collapseBackslashes t := by
  cases t with
  | nil => rfl
  | cons d t => rw [collapseBackslashes, if_neg fun hc => h hc.1]

theorem collapse_append {w : List Char} (hw : ∀ c ∈ w, c ≠ '\\') (t : List Char) :
    collapseBackslashes (w ++ t) = w ++ collapseBackslashes t := by
  induction w with
  | nil => rfl
  | cons c w ih =>
    rw [List.cons_append, collapse_cons (hw c List.mem_cons_self),
      ih fun d hd => hw d (List.mem_cons_of_mem _ hd), List.cons_append]

theorem escapeSlashes_cons (c : Char) (t : List Char) :
    escapeSlashes (c :: t) = (if c = '/' then ['\\', '/'] else [c]) ++ escapeSlashes t :=
  List.flatMap_cons

/-- The backslashes that `JSON.stringify` adds are taken away again. -/
theorem collapse_escapeSlashes {t : List Char} (h : ∀ c ∈ t, Plain c) (r : List Char) :
    collapseBackslashes ((escapeSlashes t).flatMap quoteChar ++ r) =
      escapeSlashes t ++ collapseBackslashes r := by
  induction t with
  | nil => rfl
  | cons c t ih =>
    have hc := h c List.mem_cons_self
    rw [escapeSlashes_cons, List.flatMap_append, List.append_assoc, List.append_assoc,
      ← ih fun d hd => h d (List.mem_cons_of_mem _ hd)]
    split_ifs with hslash
    · have hquote : (['\\', '/'] : List Char).flatMap quoteChar = ['\\', '\\', '/'] := by decide
      rw [hquote, List.cons_append, List.cons_append, collapseBackslashes, if_pos ⟨rfl, rfl⟩,
        List.cons_append, List.nil_append, collapse_cons (by decide)]
      rfl
    · rw [List.flatMap_singleton, quoteChar_plain hc, List.singleton_append, collapse_cons hc.2.1]
      rfl

/-- `JSON.parse` takes away those of `wyzeEncrypt`. -/
theorem readString_escapeSlashes {t : List Char} (h : ∀ c ∈ t, Plain c) {n : Nat}
    (hn : (escapeSlashes t).length < n) (r : List Char) :
    readString n (escapeSlashes t ++ '"' :: r) = some (ofText t, r) := by
  induction t generalizing n with
  | nil =>
    cases n with
    | zero => exact absurd hn (Nat.not_lt_zero _)
    | succ n => rfl
  | cons c t ih =>
    have hc := h c List.mem_cons_self
    have hspells : Spells (if c = '/' then ['\\', '/'] else [c]) (units c) := by
      split_ifs with hslash
      · rw [hslash]
        exact spells_escape (by decide) rfl
      · exact spells_char hc.1 hc.2.1 (by have := hc.2.2.1; omega)
    have hlen : 0 < (if c = '/' then ['\\', '/'] else [c]).length := by
      split_ifs <;> exact Nat.zero_lt_succ _
    rw [escapeSlashes_cons, List.length_append] at hn
    cases n with
    | zero => omega
    | succ n =>
      rw [escapeSlashes_cons, List.append_assoc, hspells,
        ih (fun d hd => h d (List.mem_cons_of_mem _ hd)) (by omega), ofText_cons]
      rfl

def front : List Char :=
  quote (js "request") ++ ':' :: (quote (js "set_status") ++
    ',' :: (quote (js "isSendQueue") ++ ':' :: (decimal.print 0 ++
      ',' :: (quote (js "characteristics") ++ [':']))))

def around (t : List Char) : List Char := '\x7b' :: (front ++ '"' :: (t ++ '"' :: ['\x7d']))

theorem stringify_payload (t : List Char) :
    stringify decimal [] (payload t) = around (quoteBody (ofText t)) := by
  simp [stringify, payload, write, writeMembers, newline, Json.pad, around, front, quote]

theorem collapse_payload {t : List Char} (h : ∀ c ∈ t, Plain c) :
    collapseBackslashes (stringify decimal [] (payload (escapeSlashes t))) =
      around (escapeSlashes t) := by
  have hall : front.all (fun c => decide (c ≠ '\\')) = true := by decide +kernel
  have hfront : ∀ c ∈ front, c ≠ '\\' :=
    fun c hc => of_decide_eq_true (List.all_eq_true.mp hall c hc)
  have htail : collapseBackslashes ('"' :: ['\x7d']) = '"' :: ['\x7d'] := by decide
  rw [stringify_payload, quoteBody_ofText, around, collapse_cons (by decide),
    collapse_append hfront, collapse_cons (by decide), collapse_escapeSlashes h, htail, around]

/-- A string whose slashes are escaped is read as the string. -/
theorem readValue_escapeSlashes {t : List Char} (h : ∀ c ∈ t, Plain c) {n : Nat}
    (hn : (escapeSlashes t).length < n) (r : List Char) :
    readValue decimal (n + 1) ('"' :: (escapeSlashes t ++ '"' :: r)) =
      some (.str (ofText t), r) := by
  rw [readValue, skip_cons (by decide)]
  dsimp only
  rw [if_neg (by decide), if_neg (by decide), if_neg (by decide), if_pos rfl,
    readString_escapeSlashes h hn, Option.map_some]

theorem read_key {k : JsString} {n : Nat} {t : List Char} (hn : (quoteBody k).length < n) :
    (expect '"' (quote k ++ t)).bind (readString n) = some (k, t) :=
  readMembers_key spaces_nil hn

theorem readMembers_front {t : List Char} (h : ∀ c ∈ t, Plain c) {n : Nat}
    (hn : (escapeSlashes t).length + 20 < n) :
    readMembers decimal (n + 3) (front ++ '"' :: (escapeSlashes t ++ '"' :: ['\x7d'])) =
      some ([(js "request", .str (js "set_status")), (js "isSendQueue", .num 0),
        (js "characteristics", .str (ofText t))], []) := by
  have hrequest : (quoteBody (js "request")).length = 7 := by decide
  have hstatus : (quote (js "set_status")).length = 12 := by decide
  have hqueue : (quoteBody (js "isSendQueue")).length = 11 := by decide
  have hname : (quoteBody (js "characteristics")).length = 15 := by decide
  have hzero : decimal.Writes 0 := by
    unfold NumberFormat.Writes
    decide
  simp only [front, List.append_assoc, List.cons_append, List.nil_append]
  refine readMembers_cons (read_key (by omega)) (readMembers_value (readValue_string spaces_nil
    (by omega))) ?_
  refine readMembers_cons (read_key (by omega)) (readMembers_value (readValue_number hzero
    spaces_nil (stops_token spaces_nil (by decide)))) ?_
  refine readMembers_last spaces_nil (read_key (by omega)) (readMembers_value ?_)
  cases n with
  | zero => omega
  | succ n => exact readValue_escapeSlashes h (by omega) ['\x7d']

/-- What is read of the body has the slashes as they were. -/
theorem parse_around {t : List Char} (h : ∀ c ∈ t, Plain c) :
    parse decimal (around (escapeSlashes t)) = some (payload t) := by
  have hfront : front.length = 57 := by decide
  have hbrace : expect '\x7d' (front ++ '"' :: (escapeSlashes t ++ '"' :: ['\x7d'])) = none := by
    rw [front, quote, List.cons_append, List.cons_append, List.cons_append]
    exact expect_other spaces_nil (by decide) (by decide)
  have hnodup : ([js "request", js "isSendQueue", js "characteristics"]).Nodup := by decide
  have hread : readValue decimal ((around (escapeSlashes t)).length + 1)
      (around (escapeSlashes t)) = some (payload t, []) := by
    have hmembers : fromMembers [(js "request", .str (js "set_status")),
        (js "isSendQueue", .num 0), (js "characteristics", .str (ofText t))] = payload t :=
      fromMembers_of_nodup hnodup
    rw [← hmembers]
    apply readValue_members spaces_nil hbrace
    have hlen : (around (escapeSlashes t)).length = (escapeSlashes t).length + 58 + 3 := by
      simp only [around, List.length_cons, List.length_append, List.length_nil, hfront]
      omega
    rw [hlen]
    exact readMembers_front h (by omega)
  rw [parse, hread]
  rfl

theorem parse_payloadStr {deviceEnr : JsString} (hkey : deviceEnr.length = 16) (cipher : Cipher)
    (characteristicsStr : JsString) : ∃ enc body,
      encrypted cipher deviceEnr characteristicsStr = some enc ∧
      payloadStr cipher deviceEnr characteristicsStr = some body ∧
      parse decimal body = some (payload (Base64.encode enc)) := by
  have hlen : (ofAscii deviceEnr).length = 16 := by rw [ofAscii, List.length_map, hkey]
  have henc : encrypted cipher deviceEnr characteristicsStr =
      some (cipher.encrypt (ofAscii deviceEnr) (ofAscii deviceEnr) (pad characteristicsStr)) :=
    if_pos hlen
  have hplain := plain_encode (cipher.encrypt (ofAscii deviceEnr) (ofAscii deviceEnr)
    (pad characteristicsStr))
  refine ⟨_, _, henc, ?_, parse_around hplain⟩
  rw [payloadStr, wyzeEncrypt, henc, Option.map_some, Option.map_some, collapse_payload hplain]

theorem localBulbCommand_posts {π : Type} {toUpperCase : JsString → JsString}
    {toString : π → JsString} {cipher : Cipher}
    {deviceMac deviceModel deviceEnr deviceIp propertyId : JsString} {propertyValue : π}
    {actionKey : JsString} {now : Nat} {posted : Posted} {body : List Char}
    (h : payloadStr cipher deviceEnr (ofText (stringify decimal []
      (characteristics (toUpperCase deviceMac) now propertyId (toString propertyValue)))) =
        some body) :
    ∃ rest, localBulbCommand toUpperCase toString cipher deviceMac deviceModel deviceEnr deviceIp
      propertyId propertyValue actionKey now posted =
        some (.post (js "http://" ++ deviceIp ++ js ":88/device_request") (ofText body) ::
          rest) := by
  rw [localBulbCommand, h, Option.map_some]
  cases posted
  · exact ⟨_, rfl⟩
  · exact ⟨_, rfl⟩
  · exact ⟨_, rfl⟩

/-- The text of characteristics that `localBulbCommand` encrypts. -/
def characteristicsText {π : Type} (toUpperCase : JsString → JsString) (toString : π → JsString)
    (deviceMac propertyId : JsString) (propertyValue : π) (now : Nat) : JsString :=
  ofText (stringify decimal []
    (characteristics (toUpperCase deviceMac) now propertyId (toString propertyValue)))

/-- The body is JSON for every text of characteristics, and what is read of it has the base64 text
of the ciphertext as it was before any escape; and the body that is posted is the one for the
characteristics of the command. -/
theorem body_well_formed {deviceEnr : JsString} (hkey : deviceEnr.length = 16) (cipher : Cipher) :
    (∀ characteristicsStr, ∃ enc body,
      encrypted cipher deviceEnr characteristicsStr = some enc ∧
      payloadStr cipher deviceEnr characteristicsStr = some body ∧
      parse decimal body = some (.obj [(js "request", .str (js "set_status")),
        (js "isSendQueue", .num 0),
        (js "characteristics", .str (ofText (Base64.encode enc)))])) ∧
    ∀ {π : Type} (toUpperCase : JsString → JsString) (toString : π → JsString)
      (deviceMac deviceModel deviceIp propertyId : JsString) (propertyValue : π)
      (actionKey : JsString) (now : Nat) (posted : Posted), ∃ enc body rest,
      encrypted cipher deviceEnr
        (characteristicsText toUpperCase toString deviceMac propertyId propertyValue now) =
          some enc ∧
      localBulbCommand toUpperCase toString cipher deviceMac deviceModel deviceEnr deviceIp
        propertyId propertyValue actionKey now posted =
          some (.post (js "http://" ++ deviceIp ++ js ":88/device_request") (ofText body) ::
            rest) ∧
      parse decimal body = some (.obj [(js "request", .str (js "set_status")),
        (js "isSendQueue", .num 0),
        (js "characteristics", .str (ofText (Base64.encode enc)))]) := by
  refine ⟨parse_payloadStr hkey cipher, ?_⟩
  intro π toUpperCase toString deviceMac deviceModel deviceIp propertyId propertyValue actionKey now
    posted
  obtain ⟨enc, body, henc, hbody, hparse⟩ := parse_payloadStr hkey cipher
    (characteristicsText toUpperCase toString deviceMac propertyId propertyValue now)
  obtain ⟨rest, hposts⟩ := @localBulbCommand_posts π toUpperCase toString cipher deviceMac
    deviceModel deviceEnr deviceIp propertyId propertyValue actionKey now posted body hbody
  exact ⟨enc, body, rest, henc, hposts, hparse⟩

def upperAscii (s : JsString) : JsString := s.map fun u => if 97 ≤ u ∧ u ≤ 122 then u - 32 else u

def slashes : JsString :=
  ofText ("\x7b\"mac\":\"A4\",\"index\":\"1\",\"ts\":123,\"plist\":" ++
    "[\x7b\"pid\":\"P3\",\"pvalue\":\"1\"\x7d]\x7d").toList

def slashesCipher : Cipher :=
  Cipher.exchange (pad slashes)
    [233, 101, 105, 35, 170, 240, 202, 35, 138, 109, 253, 21, 148, 139, 15, 162, 188, 51, 39, 209,
      154, 28, 195, 195, 5, 62, 108, 178, 198, 209, 245, 113, 159, 79, 75, 238, 152, 18, 72, 19, 93,
      237, 36, 203, 108, 184, 49, 82, 73, 163, 233, 102, 80, 118, 215, 54, 42, 124, 230, 70, 29,
      146, 149, 138, 9, 169, 119, 169, 191, 253, 244, 219, 7, 107, 85, 0, 59, 31, 222, 229, 71, 7,
      124, 149, 69, 68, 92, 142, 138, 230, 156, 143, 146, 227, 236, 86]

def switchOn : Option (List (Call Nat)) :=
  localBulbCommand upperAscii (fun n => ofText (decimal.print n)) slashesCipher (js "a4")
    (js "WLPA19") sampleKey (js "10.0.0.5") (js "P3") 1 (js "power_on") 123 .response

theorem body_well_formed_slashes :
    switchOn = some [.post (js "http://10.0.0.5:88/device_request")
      (js ("\x7b\"request\":\"set_status\",\"isSendQueue\":0,\"characteristics\":" ++
        "\"6WVpI6rwyiOKbf0VlIsPorwzJ9GaHMPDBT5sssbR9XGfT0vumBJIE13tJMtsuDFSSaPpZlB21zYqfOZGHZKVigm" ++
        "pd6m\\/\\/fTbB2tVADsf3uVHB3yVRURcjormnI+S4+xW\"\x7d"))] ∧
    ∃ enc body rest, encrypted slashesCipher sampleKey slashes = some enc ∧
      switchOn = some (.post (js "http://10.0.0.5:88/device_request") (ofText body) :: rest) ∧
      parse decimal body = some (.obj [(js "request", .str (js "set_status")),
        (js "isSendQueue", .num 0),
        (js "characteristics", .str (ofText (Base64.encode enc)))]) := by
  refine ⟨by decide +kernel, ?_⟩
  have htext : characteristicsText upperAscii (fun n => ofText (decimal.print n)) (js "a4")
      (js "P3") 1 123 = slashes := by
    decide +kernel
  rw [← htext]
  exact (body_well_formed (by decide) slashesCipher).2 upperAscii
    (fun n => ofText (decimal.print n)) (js "a4") (js "WLPA19") (js "10.0.0.5") (js "P3") 1
    (js "power_on") 123 .response

end WyzeCams.Bulb
