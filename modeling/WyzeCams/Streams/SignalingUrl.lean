import WyzeCams.Lib.Json
import WyzeCams.Lib.Uri
import Mathlib.Data.List.Infix

/-! `normalizeCameraSignalingUrl` of `src/index.js`, which takes back one level of percent
escapes. The URL is signed, so every code unit of it counts. -/
namespace WyzeCams.Streams
open Utf16 Uri

variable {ν : Type}

def decodeOrKeep (signalingUrl : JsString) : JsString :=
  (decodeUnits signalingUrl).getD signalingUrl

/-- The value of `signaling_url`; `none` where it is undefined. -/
def normalizeCameraSignalingUrl : Option (Json.Value ν) → Option (Json.Value ν)
  | some (.str signalingUrl) =>
    if signalingUrl = [] then some (.str signalingUrl)
    else if [0x25, 0x32, 0x35] <:+: signalingUrl then some (.str (decodeOrKeep signalingUrl))
    else some (.str signalingUrl)
  | signalingUrl => signalingUrl

/-- A URL that was escaped once more is given back as it was before. -/
theorem normalizeCameraSignalingUrl_escapePercents (v : JsString) :
    normalizeCameraSignalingUrl (some (.str (escapePercents v) : Json.Value ν)) =
      some (.str v) := by
  rw [normalizeCameraSignalingUrl, decodeOrKeep, decodeUnits_escapePercents, Option.getD_some]
  by_cases hv : 0x25 ∈ v
  · have hinfix := infix_escapePercents hv
    have hne : escapePercents v ≠ [] := by
      intro hnil
      rw [hnil, List.infix_nil] at hinfix
      cases hinfix
    rw [if_neg hne, if_pos hinfix]
  · rw [escapePercents_of_not_mem hv, ite_self, ite_self]

/-- `a%253D`, and the same with an escape that cannot be read. -/
example : normalizeCameraSignalingUrl (some (.str [0x61, 0x25, 0x32, 0x35, 0x33, 0x44])) =
      some (.str [0x61, 0x25, 0x33, 0x44] : Json.Value Nat) ∧
    normalizeCameraSignalingUrl (some (.str [0x25, 0x32, 0x35, 0x25, 0x43, 0x33])) =
      some (.str [0x25, 0x32, 0x35, 0x25, 0x43, 0x33] : Json.Value Nat) := ⟨rfl, rfl⟩

end WyzeCams.Streams
