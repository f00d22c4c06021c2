import WyzeCams.Browser.EufyStream
import WyzeCams.Lib.KeyOrder
import WyzeCams.Lib.Machine
import WyzeCams.Lib.OrderedMap
import Mathlib.Logic.Function.Basic

/-! The grid of `cam-frontend/public/viewer.html`: its tiles, the `streams` map that the buttons of
the page and the eufy notices use, and the order that is kept in `localStorage`. A key is the text
of a tile's `data-mac`, the mac of a Wyze camera or the serial of a eufy camera. -/
namespace WyzeCams.Dashboard
open EventMachine OrderedMap KeyOrder

inductive Vendor where
  | wyze
  | eufy
  deriving DecidableEq, Repr

structure Camera (κ : Type) where
  mac : κ
  online : Bool
  deriving DecidableEq, Repr

/-- A tile, and the session that is made with it. No two tiles of a page have one number. -/
structure Tile (κ : Type) where
  number : Nat
  vendor : Vendor
  camera : Camera κ
  deriving DecidableEq, Repr

def Tile.mac {κ : Type} (tile : Tile κ) : κ := tile.camera.mac

/-- `waiting` is the number of `start` calls of a session that wait for the stream parameters, and
`live` says whether it has a connection or a player. -/
structure Page (κ : Type) where
  made : Nat
  grid : List (Tile κ)
  streams : Entries κ (Tile κ)
  draggedTile : Option (Tile κ)
  expanded : Tile κ → Bool
  waiting : Tile κ → Nat
  live : Tile κ → Bool

/-- The open pages of one browser, which share its `localStorage`. -/
structure State (κ : Type) where
  pages : Nat → Page κ
  wyzeTileOrder : Option (List κ)

section Model
variable {κ : Type}

def Page.blank : Page κ := ⟨0, [], [], none, fun _ => false, fun _ => 0, fun _ => false⟩

def init : State κ := ⟨fun _ => .blank, none⟩

/-- `refreshed` and `listed` are the lists that `loadCameras` and `loadEufyCameras` build tiles of,
`answered` is the end of a fetch of stream parameters, `retried` and `timedOut` are the timers of
the two kinds of session. -/
inductive PageEvent (κ : Type) where
  | refreshed (cameraList : List (Camera κ))
  | listed (cameras : List (Camera κ))
  | dragStart (tile : Tile κ)
  | dragOver (tile : Tile κ) (after : Bool)
  | dragEnd (kept : Bool)
  | expand (tile : Tile κ)
  | start (tile : Tile κ) (meets : EufyStream.Page)
  | stop (tile : Tile κ)
  | startAll (mac : κ) (meets : EufyStream.Page)
  | person (sn : κ) (meets : EufyStream.Page)
  | stopAll
  | answered (tile : Tile κ) (ok : Bool)
  | retried (tile : Tile κ)
  | timedOut (tile : Tile κ)

variable [DecidableEq κ]

/-- `stop` of both kinds of session: a fetch that is under way goes on. -/
def stop (page : Page κ) (tile : Tile κ) : Page κ :=
  { page with live := Function.update page.live tile false }

def connect (page : Page κ) (tile : Tile κ) : Page κ :=
  { page with live := Function.update page.live tile true }

/-- `StreamSession.start`: of a camera that is online it fetches the stream parameters. -/
def startStream (page : Page κ) (tile : Tile κ) : Page κ :=
  if tile.camera.online then
    { stop page tile with waiting := Function.update page.waiting tile (page.waiting tile + 1) }
  else stop page tile

/-- `EufyStreamSession.start`: it returns at once where `mpegts.js` is of no use, and otherwise
makes the player, unless `createPlayer` throws. -/
def startPlayer (page : Page κ) (tile : Tile κ) (meets : EufyStream.Page) : Page κ :=
  if meets.mpegts ≠ .supported then page
  else if meets.creates then connect (stop page tile) tile
  else stop page tile

def start (page : Page κ) (tile : Tile κ) (meets : EufyStream.Page) : Page κ :=
  match tile.vendor with
  | .wyze => startStream page tile
  | .eufy => startPlayer page tile meets

/-- The end of a fetch: `_connect` does not look whether the session has been stopped since. -/
def answered (page : Page κ) (tile : Tile κ) (ok : Bool) : Page κ :=
  let page := { page with waiting := Function.update page.waiting tile (page.waiting tile - 1) }
  if ok then connect page tile else page

def stopAll (page : Page κ) : Page κ := (page.streams.map Prod.snd).foldl stop page

/-- `tile.after(dragged)` or `tile.before(dragged)`, where `dragged` is not in the list. -/
def beside (tile dragged : Tile κ) (after : Bool) : List (Tile κ) → List (Tile κ)
  | [] => []
  | x :: xs =>
    if x = tile then (if after then x :: dragged :: xs else dragged :: x :: xs)
    else x :: beside tile dragged after xs

/-- The `dragover` handler of `tile`. -/
def dragOver (page : Page κ) (tile : Tile κ) (after : Bool) : Page κ :=
  match page.draggedTile with
  | none => page
  | some dragged =>
    if dragged = tile then page
    else { page with grid := beside tile dragged after (page.grid.erase dragged) }

def expand (page : Page κ) (tile : Tile κ) : Page κ :=
  let expanding := !page.expanded tile
  { page with
    expanded := Function.update page.expanded tile expanding
    grid := if expanding then tile :: page.grid.erase tile else page.grid }

/-- The session under the tile's key is stopped and forgotten, and the tile leaves the grid. -/
def removeTile (page : Page κ) (tile : Tile κ) : Page κ :=
  match get page.streams tile.mac with
  | none => { page with grid := page.grid.erase tile }
  | some session =>
    { stop page session with
      streams := delete page.streams tile.mac
      grid := page.grid.erase tile }

/-- `removeEufyTiles`, and the loop that begins `buildGrid`. -/
def removeTiles (vendor : Vendor) (page : Page κ) : Page κ :=
  (page.grid.filter fun tile => tile.vendor = vendor).foldl removeTile page

def addTile (vendor : Vendor) (page : Page κ) (camera : Camera κ) : Page κ :=
  let tile : Tile κ := ⟨page.made, vendor, camera⟩
  { page with
    made := page.made + 1
    grid := page.grid ++ [tile]
    streams := set page.streams camera.mac tile }

def applySavedOrder (wyzeTileOrder : Option (List κ)) (page : Page κ) : Page κ :=
  { page with grid := arrange Tile.mac (wyzeTileOrder.getD []) page.grid }

def build (vendor : Vendor) (wyzeTileOrder : Option (List κ)) (page : Page κ)
    (cameras : List (Camera κ)) : Page κ :=
  applySavedOrder wyzeTileOrder (cameras.foldl (addTile vendor) (removeTiles vendor page))

def buildGrid (wyzeTileOrder : Option (List κ)) (page : Page κ) (cameraList : List (Camera κ)) :
    Page κ :=
  build .wyze wyzeTileOrder page cameraList

def buildEufyTiles (wyzeTileOrder : Option (List κ)) (page : Page κ) (cameras : List (Camera κ)) :
    Page κ :=
  build .eufy wyzeTileOrder page cameras

/-- The keys that `saveOrder` writes. -/
def order (page : Page κ) : List κ := page.grid.map Tile.mac

variable (vendorOf : κ → Vendor)

/-- A list of cameras names each once, and no camera of the other vendor. -/
def Proper (vendor : Vendor) (cameras : List (Camera κ)) : Prop :=
  (cameras.map Camera.mac).Nodup ∧ ∀ camera ∈ cameras, vendorOf camera.mac = vendor

instance (vendor : Vendor) (cameras : List (Camera κ)) :
    Decidable (Proper vendorOf vendor cameras) :=
  inferInstanceAs (Decidable (_ ∧ _))

def pageStep (wyzeTileOrder : Option (List κ)) (page : Page κ) : PageEvent κ → Option (Page κ)
  | .refreshed cameraList =>
    if Proper vendorOf .wyze cameraList then some (buildGrid wyzeTileOrder page cameraList)
      else none
  | .listed cameras =>
    if Proper vendorOf .eufy cameras then some (buildEufyTiles wyzeTileOrder page cameras) else none
  | .dragStart tile =>
      if tile ∈ page.grid then some { page with draggedTile := some tile } else none
  | .dragOver tile after => if tile ∈ page.grid then some (dragOver page tile after) else none
  | .dragEnd _ => if page.draggedTile ≠ none then some { page with draggedTile := none } else none
  | .expand tile => if tile ∈ page.grid then some (expand page tile) else none
  | .start tile meets => if tile ∈ page.grid then some (start page tile meets) else none
  | .stop tile => if tile ∈ page.grid then some (stop page tile) else none
  | .startAll mac meets =>
    match get page.streams mac with
    | none => none
    | some session => some (if session.camera.online then start page session meets else page)
  | .person sn meets =>
    match get page.streams sn with
    | none => some page
    | some session =>
      match session.vendor with
      | .wyze => some page
      | .eufy => some (if page.live session then page else startPlayer page session meets)
  | .stopAll => some (stopAll page)
  | .answered tile ok => if 0 < page.waiting tile then some (answered page tile ok) else none
  | .retried tile =>
    if tile.vendor = .wyze ∧ page.live tile = true then some (startStream page tile) else none
  | .timedOut tile =>
    if tile.vendor = .eufy ∧ page.live tile = true then some (stop page tile) else none

/-- What an event of page `p` leaves in `localStorage`: the end of a drag writes it, unless the
write fails. -/
def saved (s : State κ) (p : Nat) : PageEvent κ → Option (List κ)
  | .dragEnd true => some (order (s.pages p))
  | _ => s.wyzeTileOrder

def step (s : State κ) (e : Nat × PageEvent κ) : Option (State κ) :=
  (pageStep vendorOf s.wyzeTileOrder (s.pages e.1) e.2).map fun page =>
    ⟨Function.update s.pages e.1 page, saved s e.1 e.2⟩

end Model

section Loops
variable {κ : Type} [DecidableEq κ] {page : Page κ} {tile t : Tile κ} {k : κ}

@[simp] theorem removeTile_grid : (removeTile page tile).grid = page.grid.erase tile := by
  unfold removeTile
  split <;> rfl

@[simp] theorem removeTile_made : (removeTile page tile).made = page.made := by
  unfold removeTile
  split <;> rfl

@[simp] theorem removeTile_draggedTile : (removeTile page tile).draggedTile = page.draggedTile := by
  unfold removeTile
  split <;> rfl

@[simp] theorem removeTile_waiting : (removeTile page tile).waiting = page.waiting := by
  unfold removeTile
  split <;> rfl

theorem removeTile_get : get (removeTile page tile).streams k =
    if k = tile.mac then none else get page.streams k := by
  unfold removeTile
  split
  · rename_i hnone
    split_ifs with hk
    · rw [hk]
      exact hnone
    · rfl
  · exact get_delete

theorem removeTile_keys (h : (keys page.streams).Nodup) :
    (keys (removeTile page tile).streams).Nodup := by
  unfold removeTile
  split
  · exact h
  · exact nodup_delete h

theorem removeTile_live : (removeTile page tile).live t = true ↔
    page.live t = true ∧ get page.streams tile.mac ≠ some t := by
  unfold removeTile
  split
  · rename_i hnone
    simp [hnone]
  · rename_i session hsome
    by_cases ht : t = session
    · simp [stop, hsome, ht]
    · simp [stop, hsome, ht, Ne.symm ht]

structure Removed (page : Page κ) (ts : List (Tile κ)) (rest : Page κ) : Prop where
  made : rest.made = page.made
  draggedTile : rest.draggedTile = page.draggedTile
  waiting : rest.waiting = page.waiting
  grid : rest.grid = page.grid.diff ts
  keys : (keys page.streams).Nodup → (keys rest.streams).Nodup
  streams : ∀ k, get rest.streams k = if k ∈ ts.map Tile.mac then none else get page.streams k
  live : ∀ t, rest.live t = true ↔
    page.live t = true ∧ ∀ k ∈ ts.map Tile.mac, get page.streams k ≠ some t

theorem foldl_removeTile (ts : List (Tile κ)) (page : Page κ) :
    Removed page ts (ts.foldl removeTile page) := by
  induction ts generalizing page with
  | nil => exact ⟨rfl, rfl, rfl, rfl, id, by simp, by simp⟩
  | cons tile ts ih =>
    obtain ⟨hmade, hdragged, hwaiting, hgrid, hkeys, hstreams, hlive⟩ := ih (removeTile page tile)
    refine ⟨?_, ?_, ?_, ?_, fun h => hkeys (removeTile_keys h), fun k => ?_, fun t => ?_⟩
    · exact hmade.trans removeTile_made
    · exact hdragged.trans removeTile_draggedTile
    · exact hwaiting.trans removeTile_waiting
    · rw [List.foldl_cons, hgrid, removeTile_grid, List.diff_cons]
    · rw [List.foldl_cons, hstreams, removeTile_get, List.map_cons]
      by_cases hk : k = tile.mac
      · simp [hk]
      · simp [hk]
    · rw [List.foldl_cons, hlive, removeTile_live, List.map_cons, List.forall_mem_cons, and_assoc]
      refine and_congr_right fun _ => and_congr_right fun hfirst => forall₂_congr fun k _ => ?_
      rw [removeTile_get]
      by_cases hk : k = tile.mac
      · subst hk
        simpa using hfirst
      · rw [if_neg hk]

theorem removed_removeTiles (vendor : Vendor) (page : Page κ) :
    Removed page (page.grid.filter fun tile => tile.vendor = vendor) (removeTiles vendor page) :=
  foldl_removeTile _ page

/-- A page is as it was with the tiles `ts` and their sessions added, all with new numbers and keys.
-/
structure Added (vendor : Vendor) (page : Page κ) (cameras : List (Camera κ)) (ts : List (Tile κ))
    (all : Page κ) : Prop where
  made : page.made ≤ all.made
  draggedTile : all.draggedTile = page.draggedTile
  waiting : all.waiting = page.waiting
  live : all.live = page.live
  grid : all.grid = page.grid ++ ts
  from_list : ts.map Tile.camera = cameras
  numbers : ∀ t ∈ ts, page.made ≤ t.number ∧ t.number < all.made
  vendors : ∀ t ∈ ts, t.vendor = vendor
  nodup : ts.Nodup
  keys : (keys page.streams).Nodup → (keys all.streams).Nodup
  streams : (cameras.map Camera.mac).Nodup → ∀ k t, get all.streams k = some t ↔
    t ∈ ts ∧ t.mac = k ∨ k ∉ cameras.map Camera.mac ∧ get page.streams k = some t

theorem foldl_addTile (vendor : Vendor) (cameras : List (Camera κ)) (page : Page κ) :
    ∃ ts, Added vendor page cameras ts (cameras.foldl (addTile vendor) page) := by
  induction cameras generalizing page with
  | nil => exact ⟨[], Nat.le_refl _, rfl, rfl, rfl, by simp, rfl, by simp, by simp,
      .nil, id, by simp⟩
  | cons camera cameras ih =>
    obtain ⟨ts, h⟩ := ih (addTile vendor page camera)
    have hmade : page.made + 1 ≤ ((camera :: cameras).foldl (addTile vendor) page).made := h.made
    have hnumbers : ∀ t ∈ ts, page.made + 1 ≤ t.number := fun t ht => (h.numbers t ht).1
    let tile : Tile κ := ⟨page.made, vendor, camera⟩
    refine ⟨tile :: ts, ?_, h.draggedTile, h.waiting, h.live, ?_, ?_, ?_, ?_, ?_,
      fun hkeys => h.keys (nodup_set hkeys), ?_⟩
    · exact Nat.le_of_succ_le hmade
    · rw [List.foldl_cons, h.grid]
      exact (List.append_assoc page.grid [tile] ts)
    · rw [List.map_cons, h.from_list]
    · intro t ht
      rcases List.mem_cons.mp ht with rfl | ht
      · exact ⟨Nat.le_refl _, hmade⟩
      · exact ⟨Nat.le_of_succ_le (hnumbers t ht), (h.numbers t ht).2⟩
    · intro t ht
      rcases List.mem_cons.mp ht with rfl | ht
      · rfl
      · exact h.vendors t ht
    · refine List.nodup_cons.mpr ⟨fun ht => ?_, h.nodup⟩
      exact absurd (hnumbers tile ht) (Nat.not_succ_le_self _)
    · intro hnodup k t
      rw [List.map_cons, List.nodup_cons] at hnodup
      rw [List.foldl_cons, h.streams hnodup.2]
      have hget : get (addTile vendor page camera).streams k =
          if k = camera.mac then some tile else get page.streams k := get_set
      rw [hget, List.map_cons, List.mem_cons, List.mem_cons, not_or]
      by_cases hk : k = camera.mac
      · subst hk
        rw [if_pos rfl]
        have hts : ∀ t ∈ ts, t.mac ≠ camera.mac := by
          intro t ht hmac
          refine hnodup.1 (List.mem_map.mpr ⟨t.camera, ?_, hmac⟩)
          rw [← h.from_list]
          exact List.mem_map_of_mem ht
        constructor
        · rintro (⟨ht, hmac⟩ | ⟨-, htile⟩)
          · exact absurd hmac (hts t ht)
          · obtain rfl := Option.some.inj htile
            exact .inl ⟨.inl rfl, rfl⟩
        · rintro (⟨rfl | ht, hmac⟩ | ⟨hne, -⟩)
          · exact .inr ⟨hnodup.1, rfl⟩
          · exact absurd hmac (hts t ht)
          · exact absurd rfl hne.1
      · rw [if_neg hk]
        constructor
        · rintro (⟨ht, hmac⟩ | ⟨hnot, hget⟩)
          · exact .inl ⟨.inr ht, hmac⟩
          · exact .inr ⟨⟨hk, hnot⟩, hget⟩
        · rintro (⟨rfl | ht, hmac⟩ | ⟨⟨-, hnot⟩, hget⟩)
          · exact absurd hmac.symm hk
          · exact .inl ⟨ht, hmac⟩
          · exact .inr ⟨hnot, hget⟩

end Loops

section Invariant
variable {κ : Type} [DecidableEq κ] {vendorOf : κ →
  Vendor} {page : Page κ} {tile t : Tile κ} {k : κ}

/-- The session that `streams` has under the tile's key is the tile's own. -/
def Listed (page : Page κ) (tile : Tile κ) : Prop := get page.streams tile.mac = some tile

instance (page : Page κ) (tile : Tile κ) : Decidable (Listed page tile) :=
  inferInstanceAs (Decidable (_ = _))

structure PageInv (vendorOf : κ → Vendor) (page : Page κ) : Prop where
  below : ∀ t ∈ page.grid, t.number < page.made ∧ vendorOf t.mac = t.vendor
  dragged : ∀ t, page.draggedTile = some t → t.number < page.made ∧ vendorOf t.mac = t.vendor
  known : ∀ t, page.live t = true ∨ 0 < page.waiting t → t.number < page.made
  nodup : page.grid.Nodup
  keys : (keys page.streams).Nodup
  streams : ∀ k t, get page.streams k = some t → t.mac = k ∧ t ∈ page.grid

theorem PageInv.blank : PageInv vendorOf (.blank : Page κ) where
  below := fun _ h => absurd h List.not_mem_nil
  dragged := fun _ h => nomatch h
  known := fun _ h => by simp [Page.blank] at h
  nodup := .nil
  keys := .nil
  streams := fun _ _ h => nomatch h

theorem PageInv.listed (h : PageInv vendorOf page) (hget : get page.streams k = some t) :
    Listed page t := by
  obtain ⟨rfl, -⟩ := h.streams k t hget
  exact hget

structure Rebuilt (vendor : Vendor) (page : Page κ) (ts : List (Tile κ)) (rest : Page κ) :
    Prop where
  made : page.made ≤ rest.made
  draggedTile : rest.draggedTile = page.draggedTile
  waiting : rest.waiting = page.waiting
  grid : rest.grid.Perm (page.grid.filter (fun t => t.vendor ≠ vendor) ++ ts)
  numbers : ∀ t ∈ ts, page.made ≤ t.number ∧ t.number < rest.made
  vendors : ∀ t ∈ ts, t.vendor = vendor
  nodup : ts.Nodup
  keys : (keys rest.streams).Nodup
  streams : ∀ k t, get rest.streams k = some t ↔
    t ∈ ts ∧ t.mac = k ∨ t.vendor ≠ vendor ∧ get page.streams k = some t
  live : ∀ t, rest.live t = true ↔ page.live t = true ∧ ¬ (t.vendor = vendor ∧ Listed page t)

theorem PageInv.rebuilt (h : PageInv vendorOf page) {vendor : Vendor} {cameras : List (Camera κ)}
    (hproper : Proper vendorOf vendor cameras) (wyzeTileOrder : Option (List κ)) :
    ∃ ts, ts.map Tile.camera = cameras ∧
      Rebuilt vendor page ts (build vendor wyzeTileOrder page cameras) := by
  have hremoved := removed_removeTiles vendor page
  obtain ⟨ts, hadded⟩ := foldl_addTile vendor cameras (removeTiles vendor page)
  -- the keys of the tiles that go, and the sessions that are found under them
  have hgone : ∀ k ∈ (page.grid.filter fun t => t.vendor = vendor).map Tile.mac,
      vendorOf k = vendor := by
    intro k hk
    obtain ⟨t, ht, rfl⟩ := List.mem_map.mp hk
    obtain ⟨hmem, hvendor⟩ := List.mem_filter.mp ht
    rw [(h.below t hmem).2, of_decide_eq_true hvendor]
  have hown : ∀ k t, get page.streams k = some t → t.vendor = vendor →
      k ∈ (page.grid.filter fun t => t.vendor = vendor).map Tile.mac := by
    intro k t hget hvendor
    obtain ⟨rfl, hmem⟩ := h.streams k t hget
    exact List.mem_map_of_mem (List.mem_filter.mpr ⟨hmem, decide_eq_true hvendor⟩)
  have hvendor : ∀ k t, get page.streams k = some t → vendorOf k = t.vendor := by
    intro k t hget
    obtain ⟨rfl, hmem⟩ := h.streams k t hget
    exact (h.below t hmem).2
  have hkeys : ∀ k ∈ cameras.map Camera.mac, vendorOf k = vendor := by
    intro k hk
    obtain ⟨camera, hcamera, rfl⟩ := List.mem_map.mp hk
    exact hproper.2 camera hcamera
  refine ⟨ts, hadded.from_list, ?_, ?_, ?_, ?_, ?_, hadded.vendors, hadded.nodup,
    hadded.keys (hremoved.keys h.keys), fun k t => ?_, fun t => ?_⟩
  · exact Nat.le_trans (Nat.le_of_eq hremoved.made.symm) hadded.made
  · exact hadded.draggedTile.trans hremoved.draggedTile
  · exact hadded.waiting.trans hremoved.waiting
  · have hfilter : page.grid.diff (page.grid.filter fun t => t.vendor = vendor) =
        page.grid.filter fun t => t.vendor ≠ vendor := by
      rw [h.nodup.sdiff_eq_filter]
      apply List.filter_congr
      intro t ht
      simp [ht]
    refine (arrange_perm _ _).trans ?_
    rw [hadded.grid, hremoved.grid, hfilter]
  · intro t ht
    rw [← hremoved.made]
    exact hadded.numbers t ht
  · refine (hadded.streams hproper.1 k t).trans (or_congr_right ?_)
    rw [hremoved.streams]
    constructor
    · rintro ⟨-, hget⟩
      split_ifs at hget with hk
      exact ⟨fun hv => hk (hown k t hget hv), hget⟩
    · rintro ⟨hne, hget⟩
      have hk : vendorOf k ≠ vendor := fun hv => hne ((hvendor k t hget).symm.trans hv)
      refine ⟨fun hmem => hk (hkeys k hmem), ?_⟩
      rw [if_neg fun hmem => hk (hgone k hmem)]
      exact hget
  · have hlive : (build vendor wyzeTileOrder page cameras).live t =
      (removeTiles vendor page).live t :=
      congrFun hadded.live t
    rw [hlive, hremoved.live]
    refine and_congr_right fun _ => ⟨fun hnot hlisted => ?_, fun hnot k hk hget => ?_⟩
    · exact hnot t.mac (hown t.mac t hlisted.2 hlisted.1) hlisted.2
    · exact hnot ⟨(hvendor k t hget).symm.trans (hgone k hk), h.listed hget⟩

/-- A step after which the sessions are still found under their keys and the tiles are where they
were, up to their order. -/
structure Rearranged (page page' : Page κ) : Prop where
  made : page'.made = page.made
  grid : page'.grid.Perm page.grid
  streams : page'.streams = page.streams

omit [DecidableEq κ] in
theorem Rearranged.refl : Rearranged page page := ⟨rfl, .refl _, rfl⟩

theorem Rearranged.listed {page' : Page κ} (h : Rearranged page page') :
    Listed page' tile ↔ Listed page tile := by
  rw [Listed, Listed, h.streams]

theorem PageInv.rearranged (h : PageInv vendorOf page) {page' : Page κ}
    (hpage : Rearranged page page')
    (hdragged : ∀ t, page'.draggedTile = some t → page.draggedTile = some t ∨ t ∈ page.grid)
    (hknown : ∀ t, page'.live t = true ∨ 0 < page'.waiting t → t.number < page.made) :
    PageInv vendorOf page' where
  below := fun t ht => hpage.made ▸ h.below t (hpage.grid.mem_iff.mp ht)
  dragged := fun t ht => hpage.made ▸ (hdragged t ht).elim (h.dragged t) (h.below t)
  known := fun t ht => hpage.made ▸ hknown t ht
  nodup := hpage.grid.nodup_iff.mpr h.nodup
  keys := hpage.streams ▸ h.keys
  streams := fun k t hget =>
    (h.streams k t (hpage.streams ▸ hget)).imp_right hpage.grid.mem_iff.mpr

theorem PageInv.ofRebuilt (h : PageInv vendorOf page) {vendor : Vendor} {cameras : List (Camera κ)}
    {ts : List (Tile κ)} {page' : Page κ} (hproper : Proper vendorOf vendor cameras)
    (hts : ts.map Tile.camera = cameras) (hpage : Rebuilt vendor page ts page') :
    PageInv vendorOf page' where
  below := by
    intro t ht
    rcases List.mem_append.mp (hpage.grid.mem_iff.mp ht) with hold | hnew
    · obtain ⟨hmade, hvendor⟩ := h.below t (List.mem_of_mem_filter hold)
      exact ⟨Nat.lt_of_lt_of_le hmade hpage.made, hvendor⟩
    · have hcamera : t.camera ∈ cameras := hts ▸ List.mem_map_of_mem hnew
      exact ⟨(hpage.numbers t hnew).2, (hproper.2 _ hcamera).trans (hpage.vendors t hnew).symm⟩
  dragged := by
    intro t ht
    obtain ⟨hmade, hvendor⟩ := h.dragged t (hpage.draggedTile ▸ ht)
    exact ⟨Nat.lt_of_lt_of_le hmade hpage.made, hvendor⟩
  known := by
    intro t ht
    refine Nat.lt_of_lt_of_le (h.known t ?_) hpage.made
    rw [hpage.live, hpage.waiting] at ht
    exact ht.imp_left And.left
  nodup := by
    rw [hpage.grid.nodup_iff, List.nodup_append]
    refine ⟨h.nodup.filter _, hpage.nodup, fun t ht t' ht' heq => ?_⟩
    have hold : t.number < page.made := (h.below t (List.mem_of_mem_filter ht)).1
    exact absurd (heq ▸ (hpage.numbers t' ht').1) (Nat.not_le_of_lt hold)
  keys := hpage.keys
  streams := by
    intro k t hget
    rcases (hpage.streams k t).mp hget with ⟨ht, hk⟩ | ⟨hne, hget⟩
    · exact ⟨hk, hpage.grid.mem_iff.mpr (List.mem_append_right _ ht)⟩
    · obtain ⟨hk, hmem⟩ := h.streams k t hget
      have hkeep : t ∈ page.grid.filter fun t => t.vendor ≠ vendor :=
        List.mem_filter.mpr ⟨hmem, decide_eq_true hne⟩
      exact ⟨hk, hpage.grid.mem_iff.mpr (List.mem_append_left _ hkeep)⟩

structure SessionStep (page : Page κ) (tile : Tile κ) (page' : Page κ) : Prop where
  made : page'.made = page.made
  grid : page'.grid = page.grid
  streams : page'.streams = page.streams
  draggedTile : page'.draggedTile = page.draggedTile
  others : ∀ t, t ≠ tile → page'.live t = page.live t ∧ page'.waiting t = page.waiting t

theorem sessionStep_stop : SessionStep page tile (stop page tile) :=
  ⟨rfl, rfl, rfl, rfl, fun _ ht => ⟨Function.update_of_ne ht _ _, rfl⟩⟩

theorem sessionStep_startStream : SessionStep page tile (startStream page tile) := by
  refine ⟨?_, ?_, ?_, ?_, fun t ht => ?_⟩
  all_goals
    unfold startStream
    split_ifs <;> simp [stop, *]

theorem sessionStep_startPlayer {meets : EufyStream.Page} :
    SessionStep page tile (startPlayer page tile meets) := by
  refine ⟨?_, ?_, ?_, ?_, fun t ht => ?_⟩
  all_goals
    unfold startPlayer
    split_ifs <;> simp [connect, stop, *]

theorem sessionStep_start {meets : EufyStream.Page} :
    SessionStep page tile (start page tile meets) := by
  rw [start]
  cases tile.vendor with
  | wyze => exact sessionStep_startStream
  | eufy => exact sessionStep_startPlayer

theorem sessionStep_answered {ok : Bool} : SessionStep page tile (answered page tile ok) := by
  refine ⟨?_, ?_, ?_, ?_, fun t ht => ?_⟩
  all_goals
    unfold answered
    cases ok <;> simp [connect, *]

omit [DecidableEq κ] in
theorem SessionStep.rearranged {page' : Page κ} (h : SessionStep page tile page') :
    Rearranged page page' := ⟨h.made, h.grid ▸ .refl _, h.streams⟩

theorem PageInv.session (h : PageInv vendorOf page) {page' : Page κ}
    (hpage : SessionStep page tile page') (hmade : tile.number < page.made) :
    PageInv vendorOf page' := by
  refine h.rearranged hpage.rearranged (fun t ht => .inl (hpage.draggedTile ▸ ht)) fun t ht => ?_
  by_cases htile : t = tile
  · rw [htile]
    exact hmade
  · rw [(hpage.others t htile).1, (hpage.others t htile).2] at ht
    exact h.known t ht

theorem foldl_stop (ts : List (Tile κ)) (page : Page κ) :
    Rearranged page (ts.foldl stop page) ∧
      (ts.foldl stop page).draggedTile = page.draggedTile ∧
      (ts.foldl stop page).waiting = page.waiting ∧
      ∀ t, (ts.foldl stop page).live t = true ↔ page.live t = true ∧ t ∉ ts := by
  induction ts generalizing page with
  | nil => exact ⟨.refl, rfl, rfl, by simp⟩
  | cons tile ts ih =>
    obtain ⟨hpage, hdragged, hwaiting, hlive⟩ := ih (stop page tile)
    refine ⟨⟨hpage.made, hpage.grid, hpage.streams⟩, hdragged, hwaiting, fun t => ?_⟩
    rw [List.foldl_cons, hlive, List.mem_cons, not_or, ← and_assoc]
    refine and_congr_left fun _ => ?_
    by_cases ht : t = tile <;> simp [stop, ht]

/-- Stop All stops the sessions that are found under the keys of their tiles. -/
theorem PageInv.stopAll_live (h : PageInv vendorOf page) :
    (stopAll page).live t = true ↔ page.live t = true ∧ ¬ Listed page t := by
  obtain ⟨-, -, -, hlive⟩ := foldl_stop (page.streams.map Prod.snd) page
  rw [stopAll, hlive]
  refine and_congr_right fun _ => not_congr ⟨fun hmem => ?_, fun hlisted => ?_⟩
  · obtain ⟨⟨k, t⟩, hentry, rfl⟩ := List.mem_map.mp hmem
    exact h.listed ((get_eq_some_iff h.keys).mpr hentry)
  · exact List.mem_map_of_mem ((get_eq_some_iff h.keys).mp hlisted)

theorem beside_perm (dragged : Tile κ) (after : Bool) {tiles : List (Tile κ)} (h : tile ∈ tiles) :
    (beside tile dragged after tiles).Perm (dragged :: tiles) := by
  induction tiles with
  | nil => exact absurd h List.not_mem_nil
  | cons x xs ih =>
    unfold beside
    split_ifs with hx ha
    · exact .swap _ _ _
    · exact .refl _
    · have hxs : tile ∈ xs := (List.mem_cons.mp h).resolve_left fun he => hx he.symm
      exact ((ih hxs).cons x).trans (.swap _ _ _)

/-- A tile that is dragged over another is moved, or put back where it has been removed. -/
theorem dragOver_cases (after : Bool) (h : tile ∈ page.grid) :
    Rearranged page (dragOver page tile after) ∧
        (∀ t, page.draggedTile = some t → t ≠ tile → t ∈ page.grid) ∨
      ∃ dragged, page.draggedTile = some dragged ∧ dragged ≠ tile ∧ dragged ∉ page.grid ∧
        (dragOver page tile after).made = page.made ∧
        (dragOver page tile after).grid.Perm (dragged :: page.grid) := by
  cases hdragged : page.draggedTile with
  | none =>
    have hpage : dragOver page tile after = page := by
      unfold dragOver
      rw [hdragged]
    rw [hpage]
    exact .inl ⟨.refl, fun _ ht => nomatch ht⟩
  | some dragged =>
    by_cases hself : dragged = tile
    · have hpage : dragOver page tile after = page := by
        unfold dragOver
        rw [hdragged]
        exact if_pos hself
      rw [hpage]
      exact .inl ⟨.refl, fun t ht hne => absurd (Option.some.inj ht ▸ hself) hne⟩
    · have hpage : dragOver page tile after =
          { page with grid := beside tile dragged after (page.grid.erase dragged) } := by
        unfold dragOver
        rw [hdragged]
        exact if_neg hself
      have hmem : tile ∈ page.grid.erase dragged := (List.mem_erase_of_ne (Ne.symm hself)).mpr h
      have hperm := beside_perm dragged after hmem
      rw [hpage]
      by_cases hin : dragged ∈ page.grid
      · refine .inl ⟨⟨rfl, hperm.trans (List.perm_cons_erase hin).symm, rfl⟩, fun t ht _ => ?_⟩
        exact Option.some.inj ht ▸ hin
      · rw [List.erase_of_not_mem hin] at hperm ⊢
        exact .inr ⟨dragged, rfl, hself, hin, rfl, hperm⟩

@[simp] theorem dragOver_draggedTile {after : Bool} :
    (dragOver page tile after).draggedTile = page.draggedTile := by
  unfold dragOver
  split
  · rfl
  · split_ifs <;> rfl

@[simp] theorem dragOver_streams {after : Bool} :
    (dragOver page tile after).streams = page.streams := by
  unfold dragOver
  split
  · rfl
  · split_ifs <;> rfl

@[simp] theorem dragOver_live {after : Bool} : (dragOver page tile after).live = page.live := by
  unfold dragOver
  split
  · rfl
  · split_ifs <;> rfl

@[simp] theorem dragOver_waiting {after : Bool} :
    (dragOver page tile after).waiting = page.waiting := by
  unfold dragOver
  split
  · rfl
  · split_ifs <;> rfl

theorem expand_rearranged (h : tile ∈ page.grid) : Rearranged page (expand page tile) := by
  refine ⟨rfl, ?_, rfl⟩
  unfold expand
  dsimp only
  split_ifs
  · exact (List.perm_cons_erase h).symm
  · exact .refl _

theorem PageInv.draggedOver (h : PageInv vendorOf page) {after : Bool} (htile : tile ∈ page.grid) :
    PageInv vendorOf (dragOver page tile after) := by
  obtain ⟨hpage, -⟩ | ⟨dragged, hdrag, -, hout, hmade, hgrid⟩ := dragOver_cases after htile
  · refine h.rearranged hpage (fun t ht => ?_) fun t ht => ?_
    · rw [dragOver_draggedTile] at ht
      exact .inl ht
    · rw [dragOver_live, dragOver_waiting] at ht
      exact h.known t ht
  · refine ⟨fun t ht => ?_, fun t ht => ?_, fun t ht => ?_, ?_, ?_, fun k t hget => ?_⟩
    · rw [hmade]
      rcases List.mem_cons.mp (hgrid.mem_iff.mp ht) with rfl | hold
      · exact h.dragged t hdrag
      · exact h.below t hold
    · rw [dragOver_draggedTile] at ht
      rw [hmade]
      exact h.dragged t ht
    · rw [hmade]
      rw [dragOver_live, dragOver_waiting] at ht
      exact h.known t ht
    · exact hgrid.nodup_iff.mpr (List.nodup_cons.mpr ⟨hout, h.nodup⟩)
    · rw [dragOver_streams]
      exact h.keys
    · rw [dragOver_streams] at hget
      obtain ⟨hk, hmem⟩ := h.streams k t hget
      exact ⟨hk, hgrid.mem_iff.mpr (List.mem_cons_of_mem _ hmem)⟩

theorem PageInv.step (h : PageInv vendorOf page) {wyzeTileOrder : Option (List κ)}
    {e : PageEvent κ} {page' : Page κ}
    (hstep : pageStep vendorOf wyzeTileOrder page e = some page') :
    PageInv vendorOf page' := by
  have hlisted : ∀ {k : κ} {t : Tile κ}, get page.streams k = some t → t.number < page.made :=
    fun hget => (h.below _ (h.streams _ _ hget).2).1
  cases e with
  | refreshed cameraList =>
    obtain ⟨hproper, rfl⟩ := of_guard hstep
    obtain ⟨ts, hts, hpage⟩ := h.rebuilt hproper wyzeTileOrder
    exact h.ofRebuilt hproper hts hpage
  | listed cameras =>
    obtain ⟨hproper, rfl⟩ := of_guard hstep
    obtain ⟨ts, hts, hpage⟩ := h.rebuilt hproper wyzeTileOrder
    exact h.ofRebuilt hproper hts hpage
  | dragStart tile =>
    obtain ⟨htile, rfl⟩ := of_guard hstep
    refine h.rearranged ⟨rfl, .refl _, rfl⟩ (fun t ht => .inr ?_) h.known
    exact Option.some.inj ht ▸ htile
  | dragOver tile after =>
    obtain ⟨htile, rfl⟩ := of_guard hstep
    exact h.draggedOver htile
  | dragEnd kept =>
    obtain ⟨-, rfl⟩ := of_guard hstep
    exact h.rearranged ⟨rfl, .refl _, rfl⟩ (fun t ht => nomatch ht) h.known
  | expand tile =>
    obtain ⟨htile, rfl⟩ := of_guard hstep
    exact h.rearranged (expand_rearranged htile) (fun t ht => .inl ht) h.known
  | start tile meets =>
    obtain ⟨htile, rfl⟩ := of_guard hstep
    exact h.session sessionStep_start (h.below tile htile).1
  | stop tile =>
    obtain ⟨htile, rfl⟩ := of_guard hstep
    exact h.session sessionStep_stop (h.below tile htile).1
  | startAll mac meets =>
    simp only [pageStep] at hstep
    split at hstep
    · cases hstep
    · rename_i session hget
      obtain rfl := Option.some.inj hstep
      split_ifs
      · exact h.session sessionStep_start (hlisted hget)
      · exact h
  | person sn meets =>
    simp only [pageStep] at hstep
    split at hstep
    · obtain rfl := Option.some.inj hstep
      exact h
    · rename_i session hget
      split at hstep <;> obtain rfl := Option.some.inj hstep
      · exact h
      · split_ifs
        · exact h
        · exact h.session sessionStep_startPlayer (hlisted hget)
  | stopAll =>
    obtain rfl := Option.some.inj hstep
    obtain ⟨hpage, hdragged, hwaiting, hlive⟩ := foldl_stop (page.streams.map Prod.snd) page
    refine h.rearranged hpage (fun t ht => .inl (hdragged ▸ ht)) fun t ht => h.known t ?_
    exact ht.imp (fun hl => ((hlive t).mp hl).1) fun hw => hwaiting ▸ hw
  | answered tile ok =>
    obtain ⟨hwaiting, rfl⟩ := of_guard hstep
    exact h.session sessionStep_answered (h.known tile (.inr hwaiting))
  | retried tile =>
    obtain ⟨⟨-, hlive⟩, rfl⟩ := of_guard hstep
    exact h.session sessionStep_startStream (h.known tile (.inl hlive))
  | timedOut tile =>
    obtain ⟨⟨-, hlive⟩, rfl⟩ := of_guard hstep
    exact h.session sessionStep_stop (h.known tile (.inl hlive))

end Invariant

section Run
variable {κ : Type} [DecidableEq κ] {vendorOf : κ → Vendor}

theorem of_step {s t : State κ} {e : Nat × PageEvent κ} (h : step vendorOf s e = some t) :
    ∃ page, pageStep vendorOf s.wyzeTileOrder (s.pages e.1) e.2 = some page ∧
      t.pages e.1 = page ∧ (∀ q, q ≠ e.1 → t.pages q = s.pages q) ∧
      t.wyzeTileOrder = saved s e.1 e.2 := by
  obtain ⟨page, hpage, rfl⟩ := Option.map_eq_some_iff.mp h
  exact ⟨page, hpage, Function.update_self _ _ _, fun q hq => Function.update_of_ne hq _ _, rfl⟩

/-- Every page keeps its invariant. -/
theorem inv_step {s t : State κ} {e : Nat × PageEvent κ} (h : ∀ p, PageInv vendorOf (s.pages p))
    (hstep : step vendorOf s e = some t) (p : Nat) : PageInv vendorOf (t.pages p) := by
  obtain ⟨page, hpage, hself, hothers, -⟩ := of_step hstep
  by_cases hp : p = e.1
  · rw [hp, hself]
    exact (h e.1).step hpage
  · rw [hothers p hp]
    exact h p

end Run

end WyzeCams.Dashboard
