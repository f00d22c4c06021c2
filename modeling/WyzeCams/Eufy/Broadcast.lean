import WyzeCams.Lib.EventStream
import WyzeCams.Lib.JsonText
import WyzeCams.Lib.Machine
import WyzeCams.Lib.Table
import WyzeCams.Signaling.Payload

/-! The event stream of `eufy/server.js`: the responses of `GET /api/events`, what `broadcastEvent`
writes to them, and what `initEufyEventStream` of `cam-frontend/public/viewer.html` makes of the
bytes. The proxy between them pipes the bytes, so that only the chunks change. -/
namespace WyzeCams.Broadcast
open EventMachine EventStream Json Utf16 Utf8
open PlainObject (optional)
variable {ν : Type}

inductive Notice (ν : Type) where
  | snapshot (sn : JsString) (ts : ν)
  | battery (sn : JsString) (level : Option ν) (charging : Bool)
  | person (sn name : JsString) (ts : ν)

def Notice.value : Notice ν → Value ν
  | .snapshot sn ts =>
    .obj [(js "type", .str (js "snapshot")), (js "sn", .str sn), (js "ts", .num ts)]
  | .battery sn level charging =>
    .obj [(js "type", .str (js "battery")), (js "sn", .str sn),
      (js "battery", (level.map Value.num).getD .null), (js "batteryCharging", .bool charging)]
  | .person sn name ts =>
    .obj [(js "type", .str (js "person")), (js "sn", .str sn), (js "name", .str name),
      (js "ts", .num ts)]

/-- A response that streams events: all that was written to it, whether it is in `sseClients`, and
whether its heartbeat runs. -/
structure Response where
  text : List Char
  listed : Bool
  beating : Bool

abbrev State := List Response

def init : State := []

inductive Event (ν : Type) where
  | connected
  | heartbeat (i : Nat) (throws : Bool)
  | closed (i : Nat)
  | broadcast (notice : Notice ν) (throws : List Nat)

def connectedText : List Char := [':', ' ', 'c', 'o', 'n', 'n', 'e', 'c', 't', 'e', 'd', '\n', '\n']

def heartbeatText : List Char := [':', ' ', 'h', 'b', '\n', '\n']

section Server
variable (fmt : NumberFormat ν)

def broadcastText (notice : Notice ν) : List Char :=
  ['d', 'a', 't', 'a', ':', ' '] ++ stringify fmt [] notice.value ++ ['\n', '\n']

/-- `res.write(data)` in the loop of `broadcastEvent`. -/
def writeEvent (data : List Char) (throws : List Nat) (i : Nat) (r : Response) : Response :=
  if r.listed then
    if i ∈ throws then { r with listed := false } else { r with text := r.text ++ data }
  else r

def broadcastEvent (notice : Notice ν) (throws : List Nat) (s : State) : State :=
  s.mapIdx (writeEvent (broadcastText fmt notice) throws)

def step (s : State) : Event ν → Option State
  | .connected => some (s ++ [⟨connectedText, true, true⟩])
  | .heartbeat i throws =>
    if (s[i]?.map Response.beating) = some true then
      some (if throws then s else s.modify i fun r => { r with text := r.text ++ heartbeatText })
    else none
  | .closed i =>
    if (s[i]?.map Response.beating) = some true then
      some (s.modify i fun r => { r with listed := false, beating := false })
    else none
  | .broadcast notice throws => some (broadcastEvent fmt notice throws s)

end Server

/-- The sessions in `streams`, of a Wyze camera or of an Eufy one. -/
inductive Session where
  | stream
  | eufy
  deriving DecidableEq

abbrev Streams := JsString → Option Session

inductive Call (ν : Type) where
  | autoCapture (sn : JsString)
  | loadThumb (sn : JsString)
  | setBattery (sn : JsString) (level charging : Option (Value ν))

/-- `evt.type === name`. -/
def hasType (evt : Value ν) (name : String) : Bool :=
  match optional (some evt) (js "type") with
  | some (.str s) => s = js name
  | _ => false

/-- The serial number under which `streams.get(evt.sn)` finds a session with the three methods:
`EufyStreamSession` has them, and `StreamSession` has none of them. -/
def target (streams : Streams) (evt : Value ν) : Option JsString :=
  match optional (some evt) (js "sn") with
  | some (.str sn) => if streams sn = some .eufy then some sn else none
  | _ => none

def onmessage (fmt : NumberFormat ν) (streams : Streams) (data : List Char) : List (Call ν) :=
  match parse fmt data with
  | none => []
  | some evt =>
    match target streams evt with
    | none => []
    | some sn =>
      (if hasType evt "person" then [.autoCapture sn] else []) ++
        (if hasType evt "snapshot" then [.loadThumb sn] else []) ++
        if hasType evt "battery" then
          [.setBattery sn (optional (some evt) (js "battery"))
            (optional (some evt) (js "batteryCharging"))]
        else []

/-- The calls of a page that has received these chunks: `onmessage` takes the messages of the type
`message`, and `streams j` are the sessions of the page when it takes message `j`. -/
def calls (fmt : NumberFormat ν) (streams : Nat → Streams) (chunks : List Bytes) : List (Call ν) :=
  ((receiveAll .init chunks).2.filter fun m =>
    m.type = ['m', 'e', 's', 's', 'a', 'g', 'e']).zipIdx.flatMap fun (m, j) =>
      onmessage fmt (streams j) m.data

def Notice.sn : Notice ν → JsString
  | .snapshot sn _ => sn
  | .battery sn _ _ => sn
  | .person sn _ _ => sn

def Notice.call : Notice ν → Call ν
  | .snapshot sn _ => .loadThumb sn
  | .battery sn level charging =>
    .setBattery sn (some ((level.map Value.num).getD .null)) (some (.bool charging))
  | .person sn _ _ => .autoCapture sn

/-- The calls for notices, each made where the page has an Eufy session of the camera by then. -/
def due (streams : Nat → Streams) (ns : List (Notice ν)) : List (Call ν) :=
  (ns.zipIdx.filter fun (n, j) => streams j n.sn = some .eufy).map fun (n, _) => n.call

def Notice.Writes (fmt : NumberFormat ν) : Notice ν → Prop
  | .snapshot _ ts => fmt.Writes ts
  | .battery _ level _ => ∀ x, level = some x → fmt.Writes x
  | .person _ _ ts => fmt.Writes ts

variable {fmt : NumberFormat ν}

theorem proper_value {notice : Notice ν} (h : notice.Writes fmt) : Proper fmt notice.value := by
  cases notice with
  | snapshot sn ts =>
    have hkeys : [js "type", js "sn", js "ts"].Nodup := by decide
    exact ⟨hkeys, trivial, trivial, h, trivial⟩
  | battery sn level charging =>
    have hkeys : [js "type", js "sn", js "battery", js "batteryCharging"].Nodup := by decide
    refine ⟨hkeys, trivial, trivial, ?_, trivial, trivial⟩
    cases level with
    | none => trivial
    | some x => exact h x rfl
  | person sn name ts =>
    have hkeys : [js "type", js "sn", js "name", js "ts"].Nodup := by decide
    exact ⟨hkeys, trivial, trivial, trivial, h, trivial⟩

theorem onmessage_notice {notice : Notice ν} (h : notice.Writes fmt) (streams : Streams) :
    onmessage fmt streams (stringify fmt [] notice.value) =
      if streams notice.sn = some .eufy then [notice.call] else [] := by
  have htarget : target streams notice.value =
      if streams notice.sn = some .eufy then some notice.sn else none := by
    cases notice <;> rfl
  rw [onmessage, parse_stringify (proper_value h) spaces_nil]
  dsimp only
  rw [htarget]
  by_cases htile : streams notice.sn = some .eufy
  · rw [if_pos htile, if_pos htile]
    cases notice with
    | snapshot sn ts => rfl
    | battery sn level charging => rfl
    | person sn name ts => rfl
  · rw [if_neg htile, if_neg htile]

/-- The responses that are in `sseClients` and to which the write succeeds hear the notice. -/
def hear (notice : Notice ν) (throws : List Nat) (s : State) (i : Nat) (ns : List (Notice ν)) :
    List (Notice ν) :=
  if (s[i]?.map Response.listed) = some true ∧ i ∉ throws then ns ++ [notice] else ns

/-- Beside the machine: for each response the notices that were broadcast while it was listed. -/
def note (heard : List (List (Notice ν))) (s : State) : Event ν → State → List (List (Notice ν))
  | .connected, _ => heard ++ [[]]
  | .broadcast notice throws, _ => heard.mapIdx (hear notice throws s)
  | _, _ => heard

def Event.Writes (fmt : NumberFormat ν) : Event ν → Prop
  | .broadcast notice _ => notice.Writes fmt
  | _ => True

structure Wrote (fmt : NumberFormat ν) (text : List Char) (ns : List (Notice ν)) : Prop where
  writes : ∀ n ∈ ns, n.Writes fmt
  frames : ∃ fs : List Frame, text = fs.flatMap Frame.text ∧ (∀ f ∈ fs, f.OneLine) ∧
    fs.flatMap Frame.message =
      ns.map fun n => ⟨['m', 'e', 's', 's', 'a', 'g', 'e'], stringify fmt [] n.value⟩

theorem Wrote.comment {text : List Char} {ns : List (Notice ν)} (h : Wrote fmt text ns)
    {comment : List Char} (hline : OneLine comment) :
    Wrote fmt (text ++ (Frame.comment comment).text) ns := by
  obtain ⟨fs, rfl, hfs, hmessages⟩ := h.frames
  refine ⟨h.writes, fs ++ [.comment comment], ?_, ?_, ?_⟩
  · rw [List.flatMap_append, List.flatMap_singleton]
  · exact List.forall_mem_append.mpr ⟨hfs, List.forall_mem_singleton.mpr hline⟩
  · rw [List.flatMap_append, hmessages, List.flatMap_singleton]
    exact List.append_nil _

theorem oneLine_stringify {notice : Notice ν} (h : notice.Writes fmt) :
    OneLine (stringify fmt [] notice.value) := by
  intro c hc
  have hprintable := printable_stringify (proper_value h) c hc
  constructor
  · rintro rfl
    exact absurd hprintable (by decide)
  · rintro rfl
    exact absurd hprintable (by decide)

theorem Wrote.notice {text : List Char} {ns : List (Notice ν)} (h : Wrote fmt text ns)
    {notice : Notice ν} (hnotice : notice.Writes fmt) :
    Wrote fmt (text ++ broadcastText fmt notice) (ns ++ [notice]) := by
  obtain ⟨fs, rfl, hfs, hmessages⟩ := h.frames
  refine ⟨?_, fs ++ [.data (stringify fmt [] notice.value)], ?_, ?_, ?_⟩
  · exact List.forall_mem_append.mpr ⟨h.writes, List.forall_mem_singleton.mpr hnotice⟩
  · rw [List.flatMap_append, List.flatMap_singleton]
    rfl
  · exact List.forall_mem_append.mpr
      ⟨hfs, List.forall_mem_singleton.mpr (oneLine_stringify hnotice)⟩
  · rw [List.flatMap_append, hmessages, List.flatMap_singleton, List.map_append]
    rfl

theorem wrote_connected : Wrote fmt connectedText [] := by
  refine ⟨fun _ h => absurd h List.not_mem_nil,
    [.comment ['c', 'o', 'n', 'n', 'e', 'c', 't', 'e', 'd']], rfl, ?_, rfl⟩
  exact List.forall_mem_singleton.mpr (oneLine_of_all rfl)

/-- The messages of the notices, from number `j` on. -/
theorem flatMap_onmessage {ns : List (Notice ν)} (h : ∀ n ∈ ns, n.Writes fmt)
    (streams : Nat → Streams) (j : Nat) :
    (ns.zipIdx j).flatMap (fun (n, j) => onmessage fmt (streams j) (stringify fmt [] n.value)) =
      ((ns.zipIdx j).filter fun (n, j) => streams j n.sn = some .eufy).map fun (n, _) =>
      n.call := by
  induction ns generalizing j with
  | nil => rfl
  | cons n ns ih =>
    obtain ⟨hn, hrest⟩ := List.forall_mem_cons.mp h
    rw [List.zipIdx_cons, List.flatMap_cons, ih hrest]
    dsimp only
    rw [onmessage_notice hn]
    by_cases htile : streams j n.sn = some .eufy
    · rw [if_pos htile, List.filter_cons_of_pos (by simpa using htile), List.map_cons]
      rfl
    · rw [if_neg htile, List.filter_cons_of_neg (by simpa using htile), List.nil_append]

/-- However the bytes are cut, the page makes the calls of the notices. -/
theorem Wrote.calls {text : List Char} {ns : List (Notice ν)} (h : Wrote fmt text ns)
    {chunks : List Bytes} (hchunks : chunks.flatten = encode text) (streams : Nat → Streams) :
    calls fmt streams chunks = due streams ns := by
  obtain ⟨fs, rfl, hfs, hmessages⟩ := h.frames
  rw [Broadcast.calls, receiveAll_frames hfs hchunks, hmessages, List.filter_eq_self.mpr,
    List.zipIdx_map,
    List.flatMap_map]
  · exact flatMap_onmessage h.writes streams 0
  · intro m hm
    obtain ⟨n, -, rfl⟩ := List.mem_map.mp hm
    rfl

structure Inv (fmt : NumberFormat ν) (s : State) (heard : List (List (Notice ν))) : Prop where
  length : s.length = heard.length
  wrote : ∀ (i : Nat) (r : Response) ns, s[i]? = some r → heard[i]? = some ns → Wrote fmt r.text ns

theorem Inv.init : Inv fmt init ([] : List (List (Notice ν))) :=
  ⟨rfl, fun _ _ _ h => nomatch h⟩

/-- A change of one response that leaves its text a text of the same notices. -/
theorem Inv.modify {s : State} {heard : List (List (Notice ν))} (h : Inv fmt s heard) (k : Nat)
    {f : Response → Response}
    (hf : ∀ r ns, Wrote fmt r.text ns → Wrote fmt (f r).text ns) :
    Inv fmt (s.modify k f) heard := by
  refine ⟨by rw [List.length_modify, h.length], fun i r ns hr hns => ?_⟩
  rcases Table.getElem?_modified hr with ⟨r', hr', -, rfl⟩ | ⟨-, hr'⟩
  · exact hf r' ns (h.wrote i r' ns hr' hns)
  · exact h.wrote i r ns hr' hns

theorem Inv.connected {s : State} {heard : List (List (Notice ν))} (h : Inv fmt s heard) :
    Inv fmt (s ++ [⟨connectedText, true, true⟩]) (heard ++ [[]]) := by
  refine ⟨by rw [List.length_append, List.length_append, h.length]; rfl, fun i r ns hr hns => ?_⟩
  have hlength := h.length
  rcases Table.getElem?_concat hr with hr | ⟨hi, rfl⟩
  · rcases Table.getElem?_concat hns with hns | ⟨hi, -⟩
    · exact h.wrote i r ns hr hns
    · have hlt := (List.getElem?_eq_some_iff.mp hr).1
      omega
  · rcases Table.getElem?_concat hns with hns | ⟨-, rfl⟩
    · have hlt := (List.getElem?_eq_some_iff.mp hns).1
      omega
    · exact wrote_connected

theorem Inv.broadcast {s : State} {heard : List (List (Notice ν))} (h : Inv fmt s heard)
    {notice : Notice ν} (hnotice : notice.Writes fmt) (throws : List Nat) :
    Inv fmt (broadcastEvent fmt notice throws s) (heard.mapIdx (hear notice throws s)) := by
  refine ⟨by rw [broadcastEvent, List.length_mapIdx, List.length_mapIdx, h.length],
    fun i r ns hr hns => ?_⟩
  rw [broadcastEvent, List.getElem?_mapIdx] at hr
  rw [List.getElem?_mapIdx] at hns
  obtain ⟨r', hr', rfl⟩ := Option.map_eq_some_iff.mp hr
  obtain ⟨ns', hns', rfl⟩ := Option.map_eq_some_iff.mp hns
  have hold := h.wrote i r' ns' hr' hns'
  rw [writeEvent, hear, hr', Option.map_some]
  by_cases hlisted : r'.listed = true
  · by_cases hi : i ∈ throws
    · rw [if_pos hlisted, if_pos hi, if_neg fun hno => hno.2 hi]
      exact hold
    · rw [if_pos hlisted, if_neg hi, if_pos ⟨by rw [hlisted], hi⟩]
      exact hold.notice hnotice
  · rw [if_neg hlisted, if_neg fun hno => hlisted (Option.some.inj hno.1)]
    exact hold

theorem Inv.step {s t : State} {heard : List (List (Notice ν))} (h : Inv fmt s heard)
    {e : Event ν} (he : e.Writes fmt) (hstep : step fmt s e = some t) :
    Inv fmt t (note heard s e t) := by
  cases e with
  | connected =>
    obtain rfl := Option.some.inj hstep
    exact h.connected
  | heartbeat i throws =>
    obtain ⟨-, rfl⟩ := of_guard hstep
    cases throws with
    | true => exact h
    | false =>
      have hline : OneLine ['h', 'b'] := oneLine_of_all rfl
      exact h.modify i fun r ns hr => hr.comment hline
  | closed i =>
    obtain ⟨-, rfl⟩ := of_guard hstep
    exact h.modify i fun r ns hr => hr
  | broadcast notice throws =>
    obtain rfl := Option.some.inj hstep
    exact h.broadcast he throws

/-- In any run, whatever chunks the bytes of a response arrive in at its page, the page makes the
calls for the notices that were broadcast while the response was in `sseClients` and of whose
cameras it has an Eufy session when it takes them, each once and in their order. -/
theorem pages_hear_all (fmt : NumberFormat ν) {events : List (Event ν)}
    (hevents : ∀ e ∈ events, e.Writes fmt) {s : State} {heard : List (List (Notice ν))}
    (hrun : run (watch (step fmt) note) (init, []) events = some (s, heard))
    {i : Nat} {r : Response}
    (hr : s[i]? = some r) :
    ∃ ns, heard[i]? = some ns ∧
      ∀ (chunks : List Bytes) (streams : Nat → Streams), chunks.flatten = encode r.text →
        calls fmt streams chunks = due streams ns := by
  have hkeep : ∀ (p : State × List (List (Notice ν))) e q, Inv fmt p.1 p.2 →
      watch (step fmt) note p e = some q → e.Writes fmt → Inv fmt q.1 q.2 := by
    intro p e q hp hq he
    obtain ⟨t, ht, rfl⟩ := of_watch hq
    exact hp.step he ht
  have hall : Along (watch (step fmt) note) (fun _ e _ => e.Writes fmt) (init, []) events :=
    along_of_forall (fun e he _ _ => hevents e he) (init, [])
  have hinv : Inv fmt s heard := inv_of_run hkeep Inv.init hall hrun
  have hlt : i < heard.length := hinv.length ▸ (List.getElem?_eq_some_iff.mp hr).1
  refine ⟨heard[i], List.getElem?_eq_getElem hlt, fun chunks streams hchunks => ?_⟩
  exact (hinv.wrote i r heard[i] hr (List.getElem?_eq_getElem hlt)).calls hchunks streams

def zero : NumberFormat Unit := ⟨fun _ => ['0'], fun _ => ()⟩

/-- A person and a snapshot, with a heartbeat between them, and a snapshot after the page has gone.
-/
def evening : List (Event Unit) :=
  [.connected, .broadcast (.person (js "T1") (js "Tür") ()) [], .heartbeat 0 false,
    .broadcast (.snapshot (js "T1") ()) [], .closed 0, .broadcast (.snapshot (js "T1") ()) []]

def lateTile (j : Nat) (sn : JsString) : Option Session :=
  if 1 ≤ j ∧ sn = js "T1" then some .eufy else none

theorem pages_hear_all_evening :
    ∃ s heard r, run (watch (step zero) note) (init, []) evening = some (s, heard) ∧
      s[0]? = some r ∧ ∀ chunks : List Bytes, chunks.flatten = encode r.text →
        calls zero (fun _ => lateTile 1) chunks = [.autoCapture (js "T1"), .loadThumb (js "T1")] ∧
        calls zero lateTile chunks = [.loadThumb (js "T1")] := by
  have hwrites : zero.Writes () := ⟨by decide, rfl⟩
  have hevents : ∀ e ∈ evening, e.Writes zero := by
    simp only [evening, List.forall_mem_cons, List.not_mem_nil, false_imp_iff,
      implies_true, and_true]
    exact ⟨trivial, hwrites, trivial, hwrites, trivial, hwrites⟩
  refine ⟨_, _, _, rfl, rfl, fun chunks hchunks => ?_⟩
  obtain ⟨ns, hns, hcalls⟩ := pages_hear_all zero hevents rfl (i := 0) rfl
  obtain rfl := Option.some.inj hns
  exact ⟨hcalls chunks (fun _ => lateTile 1) hchunks, hcalls chunks lateTile hchunks⟩

end WyzeCams.Broadcast
