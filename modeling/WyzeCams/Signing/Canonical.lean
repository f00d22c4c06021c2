import WyzeCams.Signing.Olive

/-! The canonical text of parameters, `k=v` for the sorted keys joined by `&`, in
`src/src/crypto.js` and `src/src/index.js`: which parameters have the same text. -/
namespace WyzeCams.Signing
open OrderedMap Utf16

def venusSortedQuery {ν : Type} (string : ν → JsString) (params : Entries JsString ν) : JsString :=
  canonicalBody string params

def webSigningSecret : JsString := js "gbJojEBViLklgwyyDikx5ztSvKBXI5oU"

def web_create_signature {ν : Type} (string : ν → JsString) (crypto : Crypto) (payload : Payload ν)
    (access_token : JsString) : JsString :=
  let access_key := access_token ++ webSigningSecret
  let secret := crypto.hash access_key
  crypto.hmac secret (payload.body string)

structure Params (ν : Type) where
  entries : Entries JsString ν
  nodup : (keys entries).Nodup

variable {ν : Type} {string : ν → JsString}

def ampersand : UInt16 := 0x26

def equals : UInt16 := 0x3D

/-- The keys hold neither `&` nor `=`, and the texts of the values hold no `&`. -/
def Params.Plain (string : ν → JsString) (p : Params ν) : Prop :=
  ∀ e ∈ p.entries, ampersand ∉ e.1 ∧ equals ∉ e.1 ∧ ampersand ∉ string e.2

def Params.Same (string : ν → JsString) (p q : Params ν) : Prop :=
  ∀ key, (get p.entries key).map string = (get q.entries key).map string

def part (string : ν → JsString) (entries : Entries JsString ν) (key : JsString) : JsString :=
  key ++ equals :: valueOf string entries key

def parts (string : ν → JsString) (entries : Entries JsString ν) : List JsString :=
  (sort (keys entries)).map (part string entries)

theorem canonicalBody_eq (entries : Entries JsString ν) :
    canonicalBody string entries = [ampersand].intercalate (parts string entries) := by
  have hpart : ∀ key, key ++ js "=" ++ valueOf string entries key = part string entries key :=
    fun key => List.append_assoc key _ _
  simp only [canonicalBody, hpart]
  rfl

/-- A key of an object comes with its value. -/
theorem Params.mem_keys_iff (p : Params ν) {key : JsString} :
    key ∈ keys p.entries ↔ ∃ v, get p.entries key = some v ∧ (key, v) ∈ p.entries := by
  constructor
  · intro h
    obtain ⟨⟨key, v⟩, he, rfl⟩ := List.mem_map.mp h
    exact ⟨v, (get_eq_some_iff p.nodup).mpr he, he⟩
  · rintro ⟨v, -, he⟩
    exact List.mem_map_of_mem he

theorem valueOf_some {entries : Entries JsString ν} {key : JsString} {v : ν}
    (h : get entries key = some v) : valueOf string entries key = string v := by
  rw [valueOf, h]
  rfl

theorem Params.Plain.parts {p : Params ν} (hp : p.Plain string) :
    ∀ x ∈ parts string p.entries, ampersand ∉ x ∧ x ≠ [] := by
  intro x hx
  obtain ⟨key, hkey, rfl⟩ := List.mem_map.mp hx
  obtain ⟨v, hv, hmem⟩ := p.mem_keys_iff.mp ((sort_perm _).mem_iff.mp hkey)
  obtain ⟨hamp, -, hvalue⟩ := hp _ hmem
  have hne : ampersand ≠ equals := by decide
  rw [part, valueOf_some hv, List.mem_append, List.mem_cons, not_or, not_or]
  exact ⟨⟨hamp, hne, hvalue⟩, by simp⟩

/-- A key with its value is found again among parts that are the same. -/
theorem Params.Plain.find {p q : Params ν} (hp : p.Plain string) (hq : q.Plain string)
    (h : Signing.parts string p.entries = Signing.parts string q.entries) {key : JsString} {v : ν}
    (hv : get p.entries key = some v) : (get q.entries key).map string = some (string v) := by
  have hmem : (key, v) ∈ p.entries := (get_eq_some_iff p.nodup).mp hv
  have hkey : key ∈ keys p.entries := List.mem_map_of_mem hmem
  have hpart : part string p.entries key ∈ Signing.parts string q.entries := by
    rw [← h]
    exact List.mem_map_of_mem ((sort_perm _).mem_iff.mpr hkey)
  obtain ⟨key', hkey', heq⟩ := List.mem_map.mp hpart
  obtain ⟨w, hw, hmem'⟩ := q.mem_keys_iff.mp ((sort_perm _).mem_iff.mp hkey')
  rw [part, part, valueOf_some hv, valueOf_some hw] at heq
  obtain ⟨hkeys, hvalues⟩ := Separated.append_cons_inj (hq _ hmem').2.1 (hp _ hmem).2.1 heq
  have hsame : key' = key := hkeys
  rw [← hsame, hw, Option.map_some, hvalues]

theorem Params.Same.symm {p q : Params ν} (h : p.Same string q) : q.Same string p :=
  fun key => (h key).symm

theorem same_of_parts {p q : Params ν} (hp : p.Plain string) (hq : q.Plain string)
    (h : parts string p.entries = parts string q.entries) : p.Same string q := by
  intro key
  cases hv : get p.entries key with
  | some v => exact (hp.find hq h hv).symm
  | none =>
    cases hw : get q.entries key with
    | none => rfl
    | some w =>
      have hfound := hq.find hp h.symm hw
      rw [hv] at hfound
      cases hfound

theorem Params.Same.mem_keys {p q : Params ν} (h : p.Same string q) {key : JsString}
    (hkey : key ∈ keys p.entries) : key ∈ keys q.entries := by
  obtain ⟨v, hv, -⟩ := p.mem_keys_iff.mp hkey
  have hboth := h key
  rw [hv, Option.map_some] at hboth
  obtain ⟨w, hw, -⟩ := Option.map_eq_some_iff.mp hboth.symm
  exact q.mem_keys_iff.mpr ⟨w, hw, (get_eq_some_iff q.nodup).mp hw⟩

/-- The text depends on no more than the keys and the texts of their values. -/
theorem Params.Same.canonicalBody_eq {p q : Params ν} (h : p.Same string q) :
    canonicalBody string p.entries = canonicalBody string q.entries := by
  have hkeys : (keys p.entries).Perm (keys q.entries) :=
    (List.perm_ext_iff_of_nodup p.nodup q.nodup).mpr fun _ => ⟨h.mem_keys, h.symm.mem_keys⟩
  have hvalues : valueOf string p.entries = valueOf string q.entries := by
    funext key
    rw [valueOf, valueOf, h key]
  rw [canonicalBody, canonicalBody, sort_congr hkeys, hvalues]

theorem canonicalBody_iff {p q : Params ν} (hp : p.Plain string) (hq : q.Plain string) :
    canonicalBody string p.entries = canonicalBody string q.entries ↔ p.Same string q := by
  refine ⟨fun h => ?_, fun h => h.canonicalBody_eq⟩
  rw [canonicalBody_eq, canonicalBody_eq] at h
  exact same_of_parts hp hq (Separated.intercalate_inj hp.parts hq.parts h)

theorem same_of_perm {p q : Params ν} (h : p.entries.Perm q.entries) : p.Same string q := by
  intro key
  rw [get_perm p.nodup h]

/-- All four functions make the text of `_venusSortedQuery` of an object, and the three signers hash
it; it is the same for two objects exactly when they have the same keys with values of the same
texts, and the order in which the keys were added never matters. -/
theorem canonical_text_complete (string : ν → JsString) :
    (∀ (payload : Entries JsString ν) (crypto : Crypto) (access_token : JsString),
      oliveBody string payload = venusSortedQuery string payload ∧
      oliveCreateSignature string payload crypto access_token =
        oliveCreateSignatureSingle crypto (venusSortedQuery string payload) access_token ∧
      olive_create_signature string crypto (.object payload) access_token =
        crypto.hmac (crypto.hash (access_token ++ oliveSigningSecret))
          (venusSortedQuery string payload) ∧
      web_create_signature string crypto (.object payload) access_token =
        crypto.hmac (crypto.hash (access_token ++ webSigningSecret))
          (venusSortedQuery string payload)) ∧
    (∀ p q : Params ν, p.Plain string → q.Plain string →
      (venusSortedQuery string p.entries = venusSortedQuery string q.entries ↔ p.Same string q)) ∧
    ∀ p q : Params ν, p.entries.Perm q.entries →
      venusSortedQuery string p.entries = venusSortedQuery string q.entries :=
  ⟨fun _ crypto access_token => ⟨oliveBody_eq, signature_olive crypto access_token, rfl, rfl⟩,
    fun _ _ hp hq => canonicalBody_iff hp hq, fun _ _ h => (same_of_perm h).canonicalBody_eq⟩

/-- Two parameters; then the value of one of them has changed, by a surrogate that stands alone. -/
theorem canonical_text_complete_changed :
    venusSortedQuery id [(js "b", js "2"), (js "a", js "1")] ≠
      venusSortedQuery id [(js "a", js "1"), (js "b", [0xD83D])] := by
  intro h
  have hcomplete := (canonical_text_complete id).2.1
    ⟨[(js "b", js "2"), (js "a", js "1")], by decide⟩
    ⟨[(js "a", js "1"), (js "b", [0xD83D])], by decide⟩ (by unfold Params.Plain; decide)
    (by unfold Params.Plain; decide)
  exact absurd (hcomplete.mp h (js "b")) (by decide)

end WyzeCams.Signing
