import WyzeCams.Lib.Machine
import WyzeCams.Lib.Utf16
import Mathlib.Logic.Function.Basic

/-! The thumbnails of the eufy cameras: `snapshotCache` of `eufy/server.js`, the notices that
`saveSnapshot` broadcasts, and the images that `loadThumb` of `cam-frontend/public/viewer.html`
loads. A snapshot is known by the number of its save. -/
namespace WyzeCams.Thumbnails
open EventMachine Utf16

/-- A load of an image: on its way to the server, or on its way back with what the cache held. -/
inductive Load where
  | requested
  | answered (entry : Option Nat)
  deriving DecidableEq, Repr

structure Tile where
  shown : Option Nat
  load : Option Load
  deriving DecidableEq, Repr

/-- `inbox` are the snapshot notices on their way to the page. -/
structure Page where
  listed : Bool
  inbox : List JsString
  tiles : JsString → Option Tile

structure State where
  snapshotCache : JsString → Option Nat
  saves : Nat
  pages : Nat → Page

def init : State := ⟨fun _ => none, 0, fun _ => ⟨false, [], fun _ => none⟩⟩

/-- What happens at a page: its event stream is opened or lost, a notice arrives, a tile is built,
`refreshThumb` succeeds, and a load is answered, shown or fails. -/
inductive PageEvent where
  | opened
  | dropped
  | notice
  | built (sn : JsString)
  | refreshed (sn : JsString)
  | served (sn : JsString)
  | loaded (sn : JsString)
  | failed (sn : JsString)
  deriving DecidableEq, Repr

inductive Event where
  | saved (sn : JsString)
  | page (p : Nat) (e : PageEvent)
  deriving DecidableEq, Repr

/-- `loadThumb(true)`: a new `src` replaces a load that is under way. The time in it is new, and the
answer is not stored, so that it is read from the cache again. -/
def loadThumb (page : Page) (sn : JsString) : Page :=
  match page.tiles sn with
  | none => page
  | some tile =>
    let loading := { tile with load := some .requested }
    { page with tiles := Function.update page.tiles sn (some loading) }

/-- `saveSnapshot`, and `broadcastEvent` to every page in `sseClients`. -/
def saveSnapshot (s : State) (sn : JsString) : State where
  snapshotCache := Function.update s.snapshotCache sn (some s.saves)
  saves := s.saves + 1
  pages := fun p =>
    if (s.pages p).listed then { s.pages p with inbox := (s.pages p).inbox ++ [sn] } else s.pages p

def pageStep (snapshotCache : JsString → Option Nat) (page : Page) : PageEvent → Option Page
  | .opened => if page.listed = false then some { page with listed := true, inbox := [] } else none
  | .dropped => if page.listed = true then some { page with listed := false, inbox := [] } else none
  | .notice =>
    match page.inbox with
    | [] => none
    | sn :: inbox => some (loadThumb { page with inbox := inbox } sn)
  | .built sn =>
    if page.tiles sn = none then
      some { page with tiles := Function.update page.tiles sn (some ⟨none, some .requested⟩) }
    else none
  | .refreshed sn => if page.tiles sn ≠ none then some (loadThumb page sn) else none
  | .served sn =>
    match page.tiles sn with
    | some ⟨shown, some .requested⟩ =>
      some { page with
        tiles := Function.update page.tiles sn (some ⟨shown, some (.answered (snapshotCache sn))⟩) }
    | _ => none
  | .loaded sn =>
    match page.tiles sn with
    | some ⟨_, some (.answered entry)⟩ =>
      some { page with tiles := Function.update page.tiles sn (some ⟨entry, none⟩) }
    | _ => none
  | .failed sn =>
    match page.tiles sn with
    | some ⟨_, some _⟩ =>
      some { page with tiles := Function.update page.tiles sn (some ⟨none, none⟩) }
    | _ => none

def step (s : State) : Event → Option State
  | .saved sn => some (saveSnapshot s sn)
  | .page p e =>
    (pageStep s.snapshotCache (s.pages p) e).map fun page =>
      { s with pages := Function.update s.pages p page }

def Tile.value (tile : Tile) : Option (Option Nat) :=
  match tile.load with
  | none => some tile.shown
  | some (.answered entry) => some entry
  | some .requested => none

/-- The tile has something older than the cache, and loads nothing newer. -/
def Behind (snapshotCache : JsString → Option Nat) (page : Page) (sn : JsString) : Prop :=
  ∃ tile e, page.tiles sn = some tile ∧ tile.value = some e ∧ e ≠ snapshotCache sn

open Classical in
/-- Whether a page has missed the newest snapshot of a camera since its image was last read from the
cache: it was saved while the stream was down, its notice was lost with the stream, or the load of
it failed. -/
noncomputable def noteMissed (missed : Nat → JsString → Prop) (s : State) (e : Event) (_ : State) :
    Nat → JsString → Prop :=
  match e with
  | .saved sn => fun p k => missed p k ∨ k = sn ∧ (s.pages p).listed = false
  | .page p .dropped => fun q k =>
    missed q k ∨ q = p ∧ k ∈ (s.pages p).inbox ∧ Behind s.snapshotCache (s.pages p) k
  | .page p (.served sn) => fun q k => ¬ (q = p ∧ k = sn) ∧ missed q k
  | .page p (.failed sn) => fun q k =>
      if q = p ∧ k = sn then s.snapshotCache sn ≠ none else missed q k
  | _ => missed

variable {cache : JsString → Option Nat} {saves : Nat} {page : Page} {missed : JsString → Prop}
  {s : State} {sn : JsString}

@[simp] theorem loadThumb_listed : (loadThumb page sn).listed = page.listed := by
  unfold loadThumb
  cases page.tiles sn <;> rfl

@[simp] theorem loadThumb_inbox : (loadThumb page sn).inbox = page.inbox := by
  unfold loadThumb
  cases page.tiles sn <;> rfl

/-- An entry of a table in which one has been set is that one or an old one. -/
theorem update_cases {α : Type} {table : JsString → Option α} {k : JsString} {old new : α}
    (h : Function.update table sn (some new) k = some old) :
    k = sn ∧ new = old ∨ k ≠ sn ∧ table k = some old := by
  by_cases hk : k = sn
  · subst hk
    rw [Function.update_self] at h
    exact .inl ⟨rfl, Option.some.inj h⟩
  · rw [Function.update_of_ne hk] at h
    exact .inr ⟨hk, h⟩

/-- After `loadThumb` the tile's value is not known, and the other tiles are as they were. -/
theorem loadThumb_value {k : JsString} {tile : Tile} {e : Option Nat}
    (htile : (loadThumb page sn).tiles k = some tile) (he : tile.value = some e) :
    k ≠ sn ∧ page.tiles k = some tile := by
  unfold loadThumb at htile
  split at htile
  · rename_i hnone
    refine ⟨?_, htile⟩
    rintro rfl
    rw [hnone] at htile
    exact absurd htile (Option.some_ne_none _).symm
  · rcases update_cases htile with ⟨-, rfl⟩ | hold
    · exact absurd he (by simp [Tile.value])
    · exact hold

/-- What a page knows of the cache: its tiles have nothing that was not saved, and one that is
behind has missed the newest snapshot or will be told of it. -/
structure PageInv (cache : JsString → Option Nat) (saves : Nat) (page : Page)
    (missed : JsString → Prop) : Prop where
  offline : page.listed = false → page.inbox = []
  below : ∀ sn tile n, page.tiles sn = some tile → tile.value = some (some n) → n < saves
  newest : ∀ sn tile e, page.tiles sn = some tile → tile.value = some e →
    (missed sn → e ≠ cache sn) ∧ (e ≠ cache sn → missed sn ∨ sn ∈ page.inbox)

/-- Steps after which every value was one before, with the same snapshots missed and told of. -/
theorem PageInv.mono {page' : Page} (h : PageInv cache saves page missed)
    (hoffline : page'.listed = false → page'.inbox = [])
    (htiles : ∀ k tile e, page'.tiles k = some tile → tile.value = some e →
      (∃ old, page.tiles k = some old ∧ old.value = some e) ∧ (k ∈ page.inbox → k ∈ page'.inbox)) :
    PageInv cache saves page' missed := by
  refine ⟨hoffline, fun k tile n htile hn => ?_, fun k tile e htile he => ?_⟩
  · obtain ⟨⟨old, hold, hvalue⟩, -⟩ := htiles k tile (some n) htile hn
    exact h.below k old n hold hvalue
  · obtain ⟨⟨old, hold, hvalue⟩, hinbox⟩ := htiles k tile e htile he
    obtain ⟨hbehind, htold⟩ := h.newest k old e hold hvalue
    exact ⟨hbehind, fun hne => (htold hne).imp_right hinbox⟩

theorem PageInv.congr (h : PageInv cache saves page missed) {missed' : JsString → Prop}
    (hiff : ∀ k, missed' k ↔ missed k) : PageInv cache saves page missed' :=
  ⟨h.offline, h.below, fun k tile e htile he => by rw [hiff]; exact h.newest k tile e htile he⟩

/-- A tile whose value becomes `e`, where that is below what was saved and `missed` is right about
it. -/
theorem PageInv.update (h : PageInv cache saves page missed) {missed' : JsString →
    Prop} {tile : Tile}
    {e : Option Nat} (he : tile.value = some e) (hbelow : ∀ n, e = some n → n < saves)
    (hmissed : missed' sn ↔ e ≠ cache sn) (hothers : ∀ k, k ≠ sn → (missed' k ↔ missed k)) :
    PageInv cache saves { page with tiles := Function.update page.tiles sn (some tile) }
      missed' := by
  refine ⟨h.offline, fun k tile' n htile hn => ?_, fun k tile' e' htile he' => ?_⟩
  · rcases update_cases htile with ⟨-, rfl⟩ | ⟨-, hold⟩
    · exact hbelow n (Option.some.inj (he.symm.trans hn))
    · exact h.below k tile' n hold hn
  · rcases update_cases htile with ⟨rfl, rfl⟩ | ⟨hk, hold⟩
    · obtain rfl := Option.some.inj (he.symm.trans he')
      exact ⟨hmissed.mp, fun hne => .inl (hmissed.mpr hne)⟩
    · rw [hothers k hk]
      exact h.newest k tile' e' hold he'

/-- The notices that are lost with the stream are missed where the tile is behind. -/
theorem PageInv.dropped (h : PageInv cache saves page missed) :
    PageInv cache saves { page with listed := false, inbox := [] }
      fun k => missed k ∨ k ∈ page.inbox ∧ Behind cache page k := by
  refine ⟨fun _ => rfl, h.below, fun k tile e htile he => ?_⟩
  obtain ⟨hbehind, htold⟩ := h.newest k tile e htile he
  constructor
  · rintro (hmissed | ⟨-, tile', e', htile', he', hne⟩)
    · exact hbehind hmissed
    · obtain rfl := Option.some.inj (htile.symm.trans htile')
      obtain rfl := Option.some.inj (he.symm.trans he')
      exact hne
  · intro hne
    refine .inl ((htold hne).imp_right fun hk => ⟨hk, ?_⟩)
    exact ⟨tile, e, htile, he, hne⟩

/-- `saveSnapshot` at a page: it is told, or it misses the snapshot. -/
theorem PageInv.saved (h : PageInv cache saves page missed) (sn : JsString) :
    PageInv (Function.update cache sn (some saves)) (saves + 1)
      (if page.listed then { page with inbox := page.inbox ++ [sn] } else page)
      fun k => missed k ∨ k = sn ∧ page.listed = false := by
  have htiles : (if page.listed then { page with inbox := page.inbox ++ [sn] } else page).tiles =
      page.tiles := by
    split <;> rfl
  refine ⟨fun hoff => ?_, fun k tile n htile hn => ?_, fun k tile e htile he => ?_⟩
  · split_ifs at hoff ⊢ with hlisted
    · exact absurd hoff (by rw [hlisted]; decide)
    · exact h.offline hoff
  · exact Nat.lt_succ_of_lt (h.below k tile n (htiles ▸ htile) hn)
  · rw [htiles] at htile
    by_cases hk : k = sn
    · subst hk
      -- nothing the page has is the snapshot that was just saved
      have hne : e ≠ some saves := by
        rintro rfl
        exact absurd (h.below k tile saves htile he) (Nat.lt_irrefl _)
      rw [Function.update_self]
      refine ⟨fun _ => hne, fun _ => ?_⟩
      split_ifs with hlisted
      · exact .inr (List.mem_append_right _ List.mem_cons_self)
      · exact .inl (.inr ⟨rfl, Bool.eq_false_iff.mpr hlisted⟩)
    · rw [Function.update_of_ne hk]
      obtain ⟨hbehind, htold⟩ := h.newest k tile e htile he
      refine ⟨fun hm => hbehind (hm.resolve_right fun hno => hk hno.1), fun hne => ?_⟩
      refine (htold hne).imp .inl fun hin => ?_
      split_ifs
      · exact List.mem_append_left _ hin
      · exact hin

structure Inv (s : State) (missed : Nat → JsString → Prop) : Prop where
  saved : ∀ sn n, s.snapshotCache sn = some n → n < s.saves
  pages : ∀ p, PageInv s.snapshotCache s.saves (s.pages p) (missed p)

theorem Inv.init : Inv init fun _ _ => False :=
  ⟨fun _ _ h => (nomatch h), fun _ => ⟨fun _ => rfl, fun _ _ _ h => (nomatch h),
    fun _ _ _ h => (nomatch h)⟩⟩

/-- A step of one page. -/
theorem Inv.atPage {missed : Nat → JsString → Prop} (h : Inv s missed) {p : Nat} {page : Page}
    {missed' : Nat → JsString → Prop} (hpage : PageInv s.snapshotCache s.saves page (missed' p))
    (hothers : ∀ q, q ≠ p → ∀ k, missed' q k ↔ missed q k) :
    Inv { s with pages := Function.update s.pages p page } missed' := by
  refine ⟨h.saved, fun q => ?_⟩
  by_cases hq : q = p
  · subst hq
    simpa using hpage
  · have hsame : missed' q = missed q := funext fun k => propext (hothers q hq k)
    rw [hsame]
    simpa [hq] using h.pages q

theorem Inv.step {missed : Nat → JsString → Prop} (h : Inv s missed) {e : Event} {t : State}
    (hstep : step s e = some t) : Inv t (noteMissed missed s e t) := by
  cases e with
  | saved sn =>
    obtain rfl := Option.some.inj hstep
    refine ⟨fun k n hn => ?_, fun p => (h.pages p).saved sn⟩
    rcases update_cases hn with ⟨-, rfl⟩ | ⟨-, hold⟩
    · exact Nat.lt_succ_self _
    · exact Nat.lt_succ_of_lt (h.saved k n hold)
  | page p e =>
    obtain ⟨page, hpage, rfl⟩ := Option.map_eq_some_iff.mp hstep
    have hp := h.pages p
    cases e with
    | opened =>
      obtain ⟨hoff, rfl⟩ := of_guard hpage
      refine h.atPage (hp.mono (fun _ => rfl) fun k tile e htile he => ⟨⟨tile, htile, he⟩, ?_⟩)
        fun _ _ _ => Iff.rfl
      rw [hp.offline hoff]
      exact id
    | dropped =>
      obtain ⟨-, rfl⟩ := of_guard hpage
      refine h.atPage (hp.dropped.congr fun k => ?_) fun q hq k => ?_
      · simp [noteMissed]
      · simp [noteMissed, hq]
    | notice =>
      simp only [pageStep] at hpage
      split at hpage
      · cases hpage
      · rename_i sn inbox hinbox
        obtain rfl := Option.some.inj hpage
        refine h.atPage (hp.mono (fun hoff => ?_) fun k tile e htile he => ?_) fun _ _ _ => Iff.rfl
        · rw [loadThumb_listed] at hoff
          exact absurd (hp.offline hoff) (by rw [hinbox]; exact List.cons_ne_nil sn inbox)
        · obtain ⟨hk, hold⟩ := loadThumb_value htile he
          refine ⟨⟨tile, hold, he⟩, fun hin => ?_⟩
          rw [hinbox] at hin
          rw [loadThumb_inbox]
          exact (List.mem_cons.mp hin).resolve_left hk
    | built sn =>
      obtain ⟨-, rfl⟩ := of_guard hpage
      refine h.atPage (hp.mono hp.offline fun k tile e htile he => ?_) fun _ _ _ => Iff.rfl
      rcases update_cases htile with ⟨-, rfl⟩ | ⟨-, hold⟩
      · cases he
      · exact ⟨⟨tile, hold, he⟩, id⟩
    | refreshed sn =>
      obtain ⟨-, rfl⟩ := of_guard hpage
      refine h.atPage (hp.mono (fun hoff => ?_) fun k tile e htile he => ?_) fun _ _ _ => Iff.rfl
      · rw [loadThumb_inbox]
        exact hp.offline (loadThumb_listed ▸ hoff)
      · rw [loadThumb_inbox]
        exact ⟨⟨tile, (loadThumb_value htile he).2, he⟩, id⟩
    | served sn =>
      simp only [pageStep] at hpage
      split at hpage
      · obtain rfl := Option.some.inj hpage
        refine h.atPage (hp.update rfl (h.saved sn) ?_ fun k hk => ?_) fun q hq k => ?_
        · simp [noteMissed]
        · simp [noteMissed, hk]
        · simp [noteMissed, hq]
      · cases hpage
    | loaded sn =>
      simp only [pageStep] at hpage
      split at hpage
      · rename_i old entry htile
        obtain rfl := Option.some.inj hpage
        refine h.atPage (hp.mono hp.offline fun k tile e htile' he => ?_) fun _ _ _ => Iff.rfl
        rcases update_cases htile' with ⟨rfl, rfl⟩ | ⟨-, hold⟩
        · exact ⟨⟨_, htile, he⟩, id⟩
        · exact ⟨⟨tile, hold, he⟩, id⟩
      · cases hpage
    | failed sn =>
      simp only [pageStep] at hpage
      split at hpage
      · obtain rfl := Option.some.inj hpage
        refine h.atPage (hp.update rfl (fun n hn => nomatch hn) ?_ fun k hk => ?_) fun q hq k => ?_
        · simp [noteMissed, eq_comm]
        · simp [noteMissed, hk]
        · simp [noteMissed, hq]
      · cases hpage

/-- In every reachable state a tile that loads nothing, and for which no notice is on its way, shows
the newest snapshot of its camera exactly when its page has not missed it. -/
theorem shows_newest_iff {s : State} {missed : Nat → JsString → Prop}
    (h : Reachable (watch step noteMissed) (init, fun _ _ => False) (s, missed)) {p : Nat}
    {sn : JsString} {tile : Tile} (htile : (s.pages p).tiles sn = some tile)
    (hload : tile.load = none) (hinbox : sn ∉ (s.pages p).inbox) :
    tile.shown = s.snapshotCache sn ↔ ¬ missed p sn := by
  have hkeep : ∀ s w e t, Inv s w → step s e = some t → Inv t (noteMissed w s e t) :=
    fun _ _ _ _ hs hstep => hs.step hstep
  have hinv : Inv s missed := inv_of_watch hkeep Inv.init h
  have hvalue : tile.value = some tile.shown := by
    rw [Tile.value, hload]
  obtain ⟨hbehind, htold⟩ := (hinv.pages p).newest sn tile tile.shown htile hvalue
  constructor
  · intro hshown hmissed
    exact hbehind hmissed hshown
  · intro hmissed
    by_contra hne
    exact (htold hne).elim hmissed hinbox

/-- Two pages have a tile of a camera, and the stream of the second is down when a snapshot is
saved. -/
def evening : List Event :=
  [.page 0 .opened, .page 0 (.built [84]), .page 0 (.served [84]), .page 0 (.loaded [84]),
    .page 1 (.built [84]), .page 1 (.served [84]), .page 1 (.loaded [84]), .saved [84],
    .page 0 .notice, .page 0 (.served [84]), .page 0 (.loaded [84]), .page 1 .opened]

theorem shows_newest_iff_evening :
    ∃ s missed, Reachable (watch step noteMissed) (init, fun _ _ => False) (s, missed) ∧
      s.snapshotCache [84] = some 0 ∧ (s.pages 0).tiles [84] = some ⟨some 0, none⟩ ∧
        ¬ missed 0 [84] ∧
      (s.pages 1).tiles [84] = some ⟨none, none⟩ ∧ missed 1 [84] := by
  have hrun : ∃ s missed, run (watch step noteMissed) (init, fun _ _ => False) evening =
      some (s, missed) ∧ s.snapshotCache [84] = some 0 ∧
      (s.pages 0).inbox = [] ∧ (s.pages 0).tiles [84] = some ⟨some 0, none⟩ ∧
      (s.pages 1).inbox = [] ∧ (s.pages 1).tiles [84] = some ⟨none, none⟩ :=
    ⟨_, _, rfl, rfl, rfl, rfl, rfl, rfl⟩
  obtain ⟨s, missed, hrun, hcache, hinbox0, htile0, hinbox1, htile1⟩ := hrun
  have hreach : Reachable (watch step noteMissed) (init, fun _ _ => False) (s, missed) :=
    ⟨evening, hrun⟩
  have hiff0 := shows_newest_iff hreach htile0 rfl (hinbox0 ▸ List.not_mem_nil)
  have hiff1 := shows_newest_iff hreach htile1 rfl (hinbox1 ▸ List.not_mem_nil)
  refine ⟨s, missed, hreach, hcache, htile0, hiff0.mp hcache.symm, htile1, ?_⟩
  by_contra hno
  exact absurd ((hiff1.mpr hno).trans hcache) (by decide)

end WyzeCams.Thumbnails
