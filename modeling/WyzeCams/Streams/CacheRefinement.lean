import WyzeCams.Streams.StreamCache

/-! The stream-info cache as a map keyed by MAC, model and stream. -/
namespace WyzeCams.StreamCache
open OrderedMap EventMachine

/-- A sequential use of the cache: one call of `getCameraWebRTCConnectionInfo`, with the clock
when it looks the entry up, how its fetch would end, and the clock when that is stored; or one
call of `clearCameraStreamCache`. -/
inductive Use (β ε : Type) where
  | connect (mac model : String) (options : Options) (newClientId : String) (now : Int)
    (fetched : Except ε β) (later : Int)
  | clear (mac : Option String)

/-- What a use returns or throws; nothing for a clear. -/
abbrev Answer (β ε : Type) := Option (Except ε (Result β))

variable {β ε : Type}

def Use.macs : Use β ε → List String
  | .connect mac .. => [mac]
  | .clear mac => mac.toList

def use (cache : Cache β) : Use β ε → Answer β ε × Cache β
  | .connect mac model options newClientId now fetched later =>
    match cachedBundle cache mac model options now with
    | some bundle => (some (.ok (connectionInfo mac model options newClientId bundle true)), cache)
    | none => match fetched with
      | .error e => (some (.error e), cache)
      | .ok bundle => (some (.ok (connectionInfo mac model options newClientId bundle false)),
          storeBundle cache mac model options bundle later)
  | .clear mac => (none, clearCameraStreamCache cache mac)

/-- The ideal map: the last store for each camera, model and stream that has not been cleared. -/
abbrev Ideal (β : Type) := String → String → Bool → Option (Entry β)

def Ideal.store (ideal : Ideal β) (mac model : String) (substream : Bool) (entry : Entry β) :
    Ideal β :=
  fun mac' model' substream' =>
    if mac' = mac ∧ model' = model ∧ substream' = substream then some entry
    else ideal mac' model' substream'

def Ideal.clear (ideal : Ideal β) : Option String → Ideal β
  | none => fun _ _ _ => none
  | some mac => fun mac' model substream => if mac' = mac then none else ideal mac' model substream

/-- A call is answered from the ideal map when it may be and the entry of its camera, model and
stream has not expired; what it fetches otherwise is stored, if it may be. -/
def Ideal.use (ideal : Ideal β) : Use β ε → Answer β ε × Ideal β
  | .connect mac model options newClientId now fetched later =>
    match (ideal mac model options.substream).filter fun entry =>
        !options.noCache && decide (now < entry.expiresAt) with
    | some entry =>
      (some (.ok (connectionInfo mac model options newClientId entry.bundle true)), ideal)
    | none => match fetched with
      | .error e => (some (.error e), ideal)
      | .ok bundle => (some (.ok (connectionInfo mac model options newClientId bundle false)),
          if options.noCache then ideal
          else ideal.store mac model options.substream ⟨bundle, later + options.cacheTtlMs⟩)
  | .clear mac => (none, ideal.clear mac)

/-- The MACs are not empty, and none of them is another one followed by a colon and more text. -/
structure Apart (macs : List String) : Prop where
  nonempty : ∀ mac ∈ macs, mac ≠ ""
  apart : ∀ mac ∈ macs, ∀ mac' ∈ macs, ∀ more, mac' ≠ mac ++ ":" ++ more

/-- The cache holds the ideal map of these MACs and nothing else. -/
structure Represents (macs : List String) (cache : Cache β) (ideal : Ideal β) : Prop where
  same : ∀ mac ∈ macs, ∀ model substream,
    get cache (streamCacheKey mac model substream) = ideal mac model substream
  only : ∀ key entry, get cache key = some entry →
    ∃ mac ∈ macs, ∃ model substream, key = streamCacheKey mac model substream

variable {macs : List String}

theorem ne_of_toList {mac mac' : String} (hm : Apart macs) (h : mac ∈ macs) (h' : mac' ∈ macs)
    (more : List Char) : mac'.toList ≠ mac.toList ++ ':' :: more := by
  intro he
  apply hm.apart mac h mac' h' (String.ofList more)
  rw [← String.toList_inj]
  simp [he]

/-- A text that goes on with a colon after two of the MACs goes on after the same MAC. -/
theorem eq_of_colon {mac mac' : String} (hm : Apart macs) (h : mac ∈ macs) (h' : mac' ∈ macs)
    {rest rest' : List Char} (he : mac.toList ++ ':' :: rest = mac'.toList ++ ':' :: rest') :
    mac = mac' ∧ rest = rest' := by
  obtain ⟨more, hmac', hrest⟩ | ⟨more, hmac, hrest⟩ := List.append_eq_append_iff.mp he
  · cases more with
    | nil =>
      rw [List.append_nil] at hmac'
      exact ⟨String.toList_inj.mp hmac'.symm, (List.cons.inj hrest).2⟩
    | cons c more =>
      have hc : c = ':' := (List.cons.inj hrest).1.symm
      rw [hc] at hmac'
      exact absurd hmac' (ne_of_toList hm h h' more)
  · cases more with
    | nil =>
      rw [List.append_nil] at hmac
      exact ⟨String.toList_inj.mp hmac, (List.cons.inj hrest).2.symm⟩
    | cons c more =>
      have hc : c = ':' := (List.cons.inj hrest).1.symm
      rw [hc] at hmac
      exact absurd hmac (ne_of_toList hm h' h more)

/-- The part of a key after the MAC tells the model and the stream. -/
theorem eq_of_suffix {model model' : String} {substream substream' : Bool}
    (h : model.toList ++ ':' :: (if substream then "sub" else "main").toList =
      model'.toList ++ ':' :: (if substream' then "sub" else "main").toList) :
    model = model' ∧ substream = substream' := by
  have hlast := congrArg List.getLast? h
  cases substream <;> cases substream'
  · exact ⟨String.toList_inj.mp (List.append_cancel_right h), rfl⟩
  · simp [List.getLast?_append] at hlast
  · simp [List.getLast?_append] at hlast
  · exact ⟨String.toList_inj.mp (List.append_cancel_right h), rfl⟩

theorem key_inj (hm : Apart macs) {mac mac' model model' : String} {substream substream' : Bool}
    (h : mac ∈ macs) (h' : mac' ∈ macs)
    (he : streamCacheKey mac model substream = streamCacheKey mac' model' substream') :
    mac = mac' ∧ model = model' ∧ substream = substream' := by
  have hlist := congrArg String.toList he
  rw [streamCacheKey_toList, streamCacheKey_toList] at hlist
  obtain ⟨hmac, hrest⟩ := eq_of_colon hm h h' hlist
  exact ⟨hmac, eq_of_suffix hrest⟩

/-- The prefix test of a clear finds exactly the keys of its camera. -/
theorem startsWith_key_iff (hm : Apart macs) {mac mac' : String} (h : mac ∈ macs)
    (h' : mac' ∈ macs) (model : String) (substream : Bool) :
    startsWith (streamCacheKey mac model substream) (mac' ++ ":") = true ↔ mac = mac' := by
  constructor
  · rw [startsWith_iff, streamCacheKey_toList, macPrefix_toList]
    rintro ⟨rest, he⟩
    rw [List.append_assoc] at he
    exact (eq_of_colon hm h h' he.symm).1
  · intro he
    rw [← he]
    exact startsWith_key mac model substream

theorem cachedBundle_eq {cache : Cache β} {ideal : Ideal β} (hr : Represents macs cache ideal)
    {mac : String} (h : mac ∈ macs) (model : String) (options : Options) (now : Int) :
    cachedBundle cache mac model options now =
      ((ideal mac model options.substream).filter fun entry =>
        !options.noCache && decide (now < entry.expiresAt)).map Entry.bundle := by
  rw [cachedBundle, hr.same mac h]
  cases options.noCache with
  | true => simp
  | false =>
    cases ideal mac model options.substream with
    | none => rfl
    | some entry =>
      by_cases hlt : now < entry.expiresAt
      · simp [Option.filter, hlt]
      · simp [Option.filter, hlt]

theorem Represents.store (hm : Apart macs) {cache : Cache β} {ideal : Ideal β}
    (hr : Represents macs cache ideal) {mac : String} (h : mac ∈ macs) (model : String)
    (substream : Bool) (entry : Entry β) :
    Represents macs (set cache (streamCacheKey mac model substream) entry)
      (ideal.store mac model substream entry) := by
  constructor
  · intro mac' h' model' substream'
    rw [get_set, Ideal.store]
    by_cases he : mac' = mac ∧ model' = model ∧ substream' = substream
    · obtain ⟨rfl, rfl, rfl⟩ := he
      simp
    · rw [if_neg he, if_neg fun hkey => he (key_inj hm h' h hkey)]
      exact hr.same mac' h' model' substream'
  · intro key entry' hget
    rw [get_set] at hget
    split_ifs at hget with hkey
    · exact ⟨mac, h, model, substream, hkey⟩
    · exact hr.only key entry' hget

theorem Represents.clear (hm : Apart macs) {cache : Cache β} {ideal : Ideal β}
    (hr : Represents macs cache ideal) {cleared : Option String} (h : ∀ mac ∈ cleared, mac ∈ macs) :
    Represents macs (clearCameraStreamCache cache cleared) (ideal.clear cleared) := by
  cases cleared with
  | none => exact ⟨fun _ _ _ _ => rfl, fun _ _ hget => by cases hget⟩
  | some mac =>
    have hmem : mac ∈ macs := h mac rfl
    have hne := hm.nonempty mac hmem
    constructor
    · intro mac' h' model' substream'
      rw [get_clear cache hne]
      change _ = if mac' = mac then none else ideal mac' model' substream'
      by_cases he : mac' = mac
      · rw [if_pos ((startsWith_key_iff hm h' hmem model' substream').mpr he), if_pos he]
      · rw [if_neg fun hs => he ((startsWith_key_iff hm h' hmem model' substream').mp hs),
          if_neg he]
        exact hr.same mac' h' model' substream'
    · intro key entry hget
      rw [get_clear cache hne] at hget
      split_ifs at hget
      exact hr.only key entry hget

/-- One use of the cache is one use of the ideal map. -/
theorem use_refines (hm : Apart macs) {cache : Cache β} {ideal : Ideal β}
    (hr : Represents macs cache ideal) {u : Use β ε} (hu : ∀ mac ∈ u.macs, mac ∈ macs) :
    (use cache u).1 = (ideal.use u).1 ∧ Represents macs (use cache u).2 (ideal.use u).2 := by
  cases u with
  | connect mac model options newClientId now fetched later =>
    have hmac : mac ∈ macs := hu mac List.mem_cons_self
    simp only [use, Ideal.use, cachedBundle_eq hr hmac]
    cases (ideal mac model options.substream).filter fun entry =>
        !options.noCache && decide (now < entry.expiresAt) with
    | some entry => exact ⟨rfl, hr⟩
    | none =>
      cases fetched with
      | error e => exact ⟨rfl, hr⟩
      | ok bundle =>
        refine ⟨rfl, ?_⟩
        rw [Option.map_none]
        dsimp only
        rw [storeBundle]
        split_ifs
        · exact hr
        · exact hr.store hm hmac model options.substream _
  | clear cleared =>
    exact ⟨rfl, hr.clear hm fun mac hmac => hu mac (Option.mem_toList.mpr hmac)⟩

/-- For every sequence of calls and clears the cache gives the answers of the ideal map, and in
the end it holds the entries of the ideal map and no others. -/
theorem cache_refines (uses : List (Use β ε)) (h : Apart (uses.flatMap Use.macs)) :
    (answers use [] uses).1 = (answers Ideal.use (fun _ _ _ => none) uses).1 ∧
      Represents (uses.flatMap Use.macs) (answers use [] uses).2
        (answers Ideal.use (fun _ _ _ => none) uses).2 := by
  have hinit : Represents (uses.flatMap Use.macs) ([] : Cache β) fun _ _ _ => none :=
    ⟨fun _ _ _ _ => rfl, fun _ _ hget => by cases hget⟩
  refine answers_simulate (P := fun u => u ∈ uses) (fun cache ideal u hu hr => ?_) hinit
    fun u hu => hu
  exact use_refines h hr fun mac hmac => List.mem_flatMap.mpr ⟨u, hu, hmac⟩

def twoCameras : List (Use Nat String) :=
  [.connect "A4" "GW" {} "c" 10 (.ok 1) 11,
    .connect "A5" "GW" {} "c" 12 (.ok 2) 13,
    .clear (some "A4"),
    .connect "A5" "GW" {} "c" 14 (.error "late") 15,
    .connect "A4" "GW" {} "c" 16 (.ok 3) 17]

theorem apart_twoCameras : Apart (twoCameras.flatMap Use.macs) := by
  have hmacs : twoCameras.flatMap Use.macs = ["A4", "A5", "A4", "A5", "A4"] := rfl
  rw [hmacs]
  constructor
  · decide
  · intro mac hmac mac' hmac' more he
    have hlen : ∀ m ∈ ["A4", "A5", "A4", "A5", "A4"], m.length = 2 := by decide
    have hsum := congrArg String.length he
    rw [String.length_append, String.length_append, hlen mac hmac, hlen mac' hmac'] at hsum
    have hcolon : ":".length = 1 := rfl
    omega

theorem cache_refines_twoCameras :
    (answers use [] twoCameras).1 =
        [some (.ok ⟨1, "A4", "GW", false, false, some "c"⟩),
          some (.ok ⟨2, "A5", "GW", false, false, some "c"⟩), none,
          some (.ok ⟨2, "A5", "GW", false, true, some "c"⟩),
          some (.ok ⟨3, "A4", "GW", false, false, some "c"⟩)] ∧
      Represents (twoCameras.flatMap Use.macs) (answers use [] twoCameras).2
        (answers Ideal.use (fun _ _ _ => none) twoCameras).2 := by
  obtain ⟨hanswers, hentries⟩ := cache_refines twoCameras apart_twoCameras
  refine ⟨?_, hentries⟩
  rw [hanswers]
  rfl

def colonCameras : List (Use Nat String) :=
  [.connect "AA" ":x" {} "c" 10 (.ok 1) 11, .connect "AA:" "x" {} "c" 12 (.ok 2) 13]

/-- No MAC is empty or another one followed by a colon and a text that is not empty, but the
second call is answered with the entry of the first camera. -/
theorem colon_shares_key :
    (∀ mac ∈ colonCameras.flatMap Use.macs, mac ≠ "") ∧
      (∀ mac ∈ colonCameras.flatMap Use.macs, ∀ mac' ∈ colonCameras.flatMap Use.macs, ∀ more,
        more ≠ "" → mac' ≠ mac ++ ":" ++ more) ∧
      (answers use [] colonCameras).1 =
        [some (.ok ⟨1, "AA", ":x", false, false, some "c"⟩),
          some (.ok ⟨1, "AA:", "x", false, true, some "c"⟩)] ∧
      (answers Ideal.use (fun _ _ _ => none) colonCameras).1 =
        [some (.ok ⟨1, "AA", ":x", false, false, some "c"⟩),
          some (.ok ⟨2, "AA:", "x", false, false, some "c"⟩)] := by
  have hmacs : colonCameras.flatMap Use.macs = ["AA", "AA:"] := rfl
  refine ⟨by rw [hmacs]; decide, ?_, by decide +kernel, by decide +kernel⟩
  intro mac hmac mac' hmac' more hmore he
  have hshort : ∀ m ∈ ["AA", "AA:"], 2 ≤ m.length ∧ m.length ≤ 3 := by decide
  have hpos : 0 < more.length := by
    rw [Nat.pos_iff_ne_zero, Ne, String.length_eq_zero_iff]
    exact hmore
  rw [hmacs] at hmac hmac'
  have hlen := congrArg String.length he
  rw [String.length_append, String.length_append, show ":".length = 1 from rfl] at hlen
  have := hshort mac hmac
  have := hshort mac' hmac'
  omega

end WyzeCams.StreamCache
