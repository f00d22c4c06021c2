import WyzeCams.Lib.OrderedMap
import WyzeCams.Lib.Scalars
import WyzeCams.Lib.Separated
import WyzeCams.Lib.UnitOrder

/-! The Olive signatures of `src/crypto.js`: the bytes that each signer feeds to its digests. -/
namespace WyzeCams.Signing
open OrderedMap Utf16
open Utf8 (Bytes hex)

structure Crypto where
  md5 : Bytes → Bytes
  hmacMd5 : Bytes → Bytes → Bytes

def Crypto.hash (crypto : Crypto) (text : JsString) : JsString :=
  js (hex (crypto.md5 (utf8 text)))

def Crypto.hmac (crypto : Crypto) (key text : JsString) : JsString :=
  js (hex (crypto.hmacMd5 (utf8 key) (utf8 text)))

/-- `utf8.encode` throws for a surrogate that stands alone. -/
def encode (text : JsString) : Option JsString :=
  if WellFormed text then some (ofBytes (utf8 text)) else none

variable {ν : Type} (string : ν → JsString) (payload : Entries JsString ν)

def valueOf (key : JsString) : JsString := ((get payload key).map string).getD (js "undefined")

def oliveSigningSecret : JsString := js "wyze_app_secret_key_132"

def oliveCreateSignatureSingle (crypto : Crypto) (payload access_token : JsString) :
    Option JsString :=
  let access_key := access_token ++ oliveSigningSecret
  (encode access_key).bind fun secret =>
    let secrestDig := crypto.hash secret
    (encode secrestDig).bind fun key => (encode payload).map fun text => crypto.hmac key text

/-- The loop over the sorted keys, and `body.slice(0, -1)` after it. -/
def oliveBody : JsString :=
  let body := (sort (keys payload)).foldl
    (fun body key => body ++ (key ++ js "=" ++ valueOf string payload key ++ js "&")) []
  body.dropLast

def oliveCreateSignature (crypto : Crypto) (access_token : JsString) : Option JsString :=
  let access_key := access_token ++ oliveSigningSecret
  (encode access_key).bind fun secret =>
    let secrestDig := crypto.hash secret
    (encode secrestDig).bind fun key =>
      (encode (oliveBody string payload)).map fun text => crypto.hmac key text

/-- `payload` is an object or a text. -/
inductive Payload (ν : Type) where
  | object (entries : Entries JsString ν)
  | text (body : JsString)

def canonicalBody : JsString :=
  (js "&").intercalate ((sort (keys payload)).map fun key =>
    key ++ js "=" ++ valueOf string payload key)

def Payload.body : Payload ν → JsString
  | .object payload => canonicalBody string payload
  | .text body => body

def olive_create_signature (crypto : Crypto) (payload : Payload ν) (access_token : JsString) :
    JsString :=
  let access_key := access_token ++ oliveSigningSecret
  let secret := crypto.hash access_key
  crypto.hmac secret (payload.body string)

def iot3CreateSignature (crypto : Crypto) (bodyStr access_token : JsString) : JsString :=
  let accessKey := access_token ++ oliveSigningSecret
  let secret := crypto.hash accessKey
  crypto.hmac secret bodyStr

structure Post where
  signature2 : JsString
  data : JsString

/-- `setIotProp` and `thermostatSetIotProp` turn their payload into JSON twice; they post nothing
where the signer throws. -/
def setIotProp {α : Type} (stringify : α → JsString) (crypto : Crypto) (payload : α)
    (access_token : JsString) : Option Post :=
  (oliveCreateSignatureSingle crypto (stringify payload) access_token).map fun signature2 =>
    ⟨signature2, stringify payload⟩

/-- What a signer feeds to the MD5 of its key and to HMAC-MD5. -/
structure Fed where
  key : Bytes
  body : Bytes
  deriving DecidableEq

def Fed.signature (fed : Fed) (crypto : Crypto) : JsString :=
  js (hex (crypto.hmacMd5 (utf8 (js (hex (crypto.md5 fed.key)))) fed.body))

def once (body access_token : JsString) : Fed :=
  ⟨utf8 (access_token ++ oliveSigningSecret), utf8 body⟩

def twice (body access_token : JsString) : Fed :=
  ⟨utf8 (ofBytes (utf8 (access_token ++ oliveSigningSecret))), utf8 (ofBytes (utf8 body))⟩

/-- Two signers agree whatever the digests are exactly when they feed them the same bytes. -/
theorem signature_inj {fed fed' : Fed} :
    (∀ crypto, fed.signature crypto = fed'.signature crypto) ↔ fed = fed' := by
  constructor
  · intro h
    have hhex : ∀ {bs bs' : Bytes}, js (hex bs) = js (hex bs') → bs = bs' :=
      fun h => Utf8.hex_inj (js_injective h)
    have hdigest := hhex (h ⟨id, fun key _ => key⟩)
    have hbody := hhex (h ⟨id, fun _ body => body⟩)
    rw [utf8_js, utf8_js] at hdigest
    have hkey := Utf8.bytes_hex_inj hdigest
    cases fed
    cases fed'
    rw [Fed.mk.injEq]
    exact ⟨hkey, hbody⟩
  · intro h crypto
    rw [h]

theorem isAscii_secret : IsAscii oliveSigningSecret := by decide +kernel

theorem twice_eq_once {body access_token : JsString}
    (htoken : WellFormed (access_token ++ oliveSigningSecret)) (hbody : WellFormed body) :
    twice body access_token = once body access_token ↔ IsAscii access_token ∧ IsAscii body := by
  rw [twice, once, Fed.mk.injEq, utf8_twice_iff htoken, utf8_twice_iff hbody, isAscii_append,
    and_iff_left isAscii_secret]

variable {string payload}

theorem foldl_append {κ α : Type} (f : κ → List α) (ks : List κ) (s : List α) :
    ks.foldl (fun s k => s ++ f k) s = s ++ ks.flatMap f := by
  induction ks generalizing s with
  | nil => simp
  | cons k ks ih => rw [List.foldl_cons, ih, List.flatMap_cons, List.append_assoc]

/-- The loop makes the same body as the join. -/
theorem oliveBody_eq : oliveBody string payload = canonicalBody string payload := by
  rw [oliveBody, foldl_append, List.nil_append]
  exact Separated.dropLast_flatMap _ _ _

theorem isAscii_intercalate {sep : JsString} (hsep : IsAscii sep) (parts : List JsString) :
    IsAscii (sep.intercalate parts) ↔ ∀ part ∈ parts, IsAscii part := by
  induction parts with
  | nil => simp [IsAscii]
  | cons part parts ih =>
    cases parts with
    | nil => simp
    | cons part' parts =>
      rw [List.intercalate_cons_cons, isAscii_append, isAscii_append, and_iff_left hsep, ih,
        List.forall_mem_cons (a := part)]

theorem isAscii_canonicalBody : IsAscii (canonicalBody string payload) ↔
    ∀ key ∈ keys payload, IsAscii key ∧ IsAscii (valueOf string payload key) := by
  have hamp : IsAscii (js "&") := by decide +kernel
  have heq : IsAscii (js "=") := by decide +kernel
  rw [canonicalBody, isAscii_intercalate hamp]
  simp only [List.forall_mem_map, (sort_perm _).mem_iff, isAscii_append, and_iff_left heq]

theorem encode_eq {text : JsString} (h : WellFormed text) :
    encode text = some (ofBytes (utf8 text)) :=
  if_pos h

/-- Hexadecimal digits are encoded as they are. -/
theorem encode_hex (bs : Bytes) : encode (js (hex bs)) = some (js (hex bs)) := by
  have hascii : IsAscii (js (hex bs)) := (isAscii_ofText _).mpr (Utf8.isAscii_hex bs)
  rw [encode_eq (wellFormed_of_ascii hascii), ofBytes_utf8 hascii]

theorem signature_single (crypto : Crypto) {payload access_token : JsString}
    (htoken : WellFormed (access_token ++ oliveSigningSecret)) (hbody : WellFormed payload) :
    oliveCreateSignatureSingle crypto payload access_token =
      some ((twice payload access_token).signature crypto) := by
  rw [oliveCreateSignatureSingle, encode_eq htoken, Option.bind_some, Crypto.hash]
  dsimp only
  rw [encode_hex, Option.bind_some, encode_eq hbody, Option.map_some]
  rfl

/-- It throws where a surrogate stands alone. -/
theorem single_eq_none (crypto : Crypto) {payload access_token : JsString}
    (h : ¬ (WellFormed (access_token ++ oliveSigningSecret) ∧ WellFormed payload)) :
    oliveCreateSignatureSingle crypto payload access_token = none := by
  rw [oliveCreateSignatureSingle]
  by_cases htoken : WellFormed (access_token ++ oliveSigningSecret)
  · have hbody : encode payload = none := if_neg fun hbody => h ⟨htoken, hbody⟩
    rw [encode_eq htoken, Option.bind_some, Crypto.hash]
    dsimp only
    rw [encode_hex, Option.bind_some, hbody]
    rfl
  · have hkey : encode (access_token ++ oliveSigningSecret) = none := if_neg htoken
    rw [hkey]
    rfl

theorem signature_olive (crypto : Crypto) (access_token : JsString) :
    oliveCreateSignature string payload crypto access_token =
      oliveCreateSignatureSingle crypto (canonicalBody string payload) access_token := by
  rw [← oliveBody_eq]
  rfl

/-- `oliveCreateSignatureSingle` agrees with the others exactly on ASCII texts. -/
theorem agrees_iff {body : JsString} (access_token : JsString) (shape : Payload ν)
    (hshape : shape.body string = body) :
    (∀ crypto, oliveCreateSignatureSingle crypto body access_token =
        some ((once body access_token).signature crypto) ∧
      oliveCreateSignatureSingle crypto body access_token =
        some (olive_create_signature string crypto shape access_token) ∧
      oliveCreateSignatureSingle crypto body access_token =
        some (iot3CreateSignature crypto body access_token)) ↔
      IsAscii access_token ∧ IsAscii body := by
  have holive : ∀ crypto, olive_create_signature string crypto shape access_token =
      (once body access_token).signature crypto := by
    intro crypto
    rw [olive_create_signature, hshape]
    rfl
  have hiot3 : ∀ crypto, iot3CreateSignature crypto body access_token =
      (once body access_token).signature crypto := fun _ => rfl
  simp only [holive, hiot3, and_self]
  by_cases h : WellFormed (access_token ++ oliveSigningSecret) ∧ WellFormed body
  · rw [← twice_eq_once h.1 h.2, ← signature_inj]
    simp only [signature_single _ h.1 h.2, Option.some_inj]
  · have hnone := single_eq_none ⟨id, fun key _ => key⟩ h
    refine iff_of_false (fun hall => ?_) fun hascii => h ?_
    · have hsome := hall ⟨id, fun key _ => key⟩
      rw [hnone] at hsome
      cases hsome
    · exact ⟨wellFormed_of_ascii (isAscii_append.mpr ⟨hascii.1, isAscii_secret⟩),
        wellFormed_of_ascii hascii.2⟩

/-- `oliveCreateSignature` feeds the canonical body and the access key, encoded once, to its
digests, and so returns what the other two signers return, exactly when the token, the keys and
the values are ASCII; and `setIotProp` signs the text that it posts in this way exactly when the
token and the text are ASCII. -/
theorem signs_once_iff {α : Type} (string : ν → JsString) (payload : Entries JsString ν)
    (stringify : α → JsString) (json : α) (access_token : JsString) :
    ((∀ crypto,
      oliveCreateSignature string payload crypto access_token =
        some ((once (canonicalBody string payload) access_token).signature crypto) ∧
      oliveCreateSignature string payload crypto access_token =
        some (olive_create_signature string crypto (.object payload) access_token) ∧
      oliveCreateSignature string payload crypto access_token =
        some (iot3CreateSignature crypto (canonicalBody string payload) access_token)) ↔
      IsAscii access_token ∧
        ∀ key ∈ keys payload, IsAscii key ∧ IsAscii (valueOf string payload key)) ∧
    ((∀ crypto, ∃ post, setIotProp stringify crypto json access_token = some post ∧
      post.signature2 = (once post.data access_token).signature crypto ∧
      post.signature2 = olive_create_signature string crypto (.text post.data) access_token ∧
      post.signature2 = iot3CreateSignature crypto post.data access_token) ↔
      IsAscii access_token ∧ IsAscii (stringify json)) := by
  constructor
  · simp only [signature_olive]
    rw [← isAscii_canonicalBody]
    exact agrees_iff access_token (.object payload) rfl
  · have hagrees := @agrees_iff ν string (stringify json) access_token (.text (stringify json)) rfl
    refine Iff.trans (forall_congr' fun crypto => ?_) hagrees
    rw [setIotProp]
    cases oliveCreateSignatureSingle crypto (stringify json) access_token with
    | none => simp
    | some signature2 => simp only [Option.map_some, Option.some_inj, exists_eq_left']

/-- Each byte of "é" is taken for a character and encoded again. -/
theorem accented_value_fed_twice :
    (twice (js "é") (js "token")).body = [0xC3, 0x83, 0xC2, 0xA9] ∧
    (once (js "é") (js "token")).body = [0xC3, 0xA9] ∧
    ¬ ∀ crypto, oliveCreateSignature id [(js "name", js "é")] crypto (js "token") =
      some ((once (canonicalBody id [(js "name", js "é")]) (js "token")).signature crypto) := by
  refine ⟨by decide +kernel, by decide +kernel, fun h => ?_⟩
  have htoken : WellFormed (js "token" ++ oliveSigningSecret) := by decide +kernel
  have hbody : WellFormed (canonicalBody id [(js "name", js "é")]) := by decide +kernel
  simp only [signature_olive, signature_single _ htoken hbody, Option.some_inj] at h
  have hascii := ((twice_eq_once htoken hbody).mp (signature_inj.mp h)).2
  rw [isAscii_canonicalBody] at hascii
  exact absurd (hascii (js "name") List.mem_cons_self).2 (by decide +kernel)

end WyzeCams.Signing
