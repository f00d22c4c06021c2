import WyzeCams.Browser.Dashboard

/-! Which session a tile's buttons and the page's buttons act upon, and what Stop All leaves. -/
namespace WyzeCams.Dashboard
open EventMachine OrderedMap

variable {κ : Type} [DecidableEq κ] {vendorOf : κ → Vendor} {page page' : Page κ}
  {tile t : Tile κ} {p q : Nat} {wyzeTileOrder : Option (List κ)}

/-- Which tiles stand in a page's grid although they have been removed from it: they were removed
while they were dragged, and then dragged over another tile. -/
def noteBack (back : Nat → Tile κ → Prop) (s : State κ) (e : Nat × PageEvent κ) (_ : State κ) :
    Nat → Tile κ → Prop :=
  match e.2 with
  | .refreshed _ => fun q t => back q t ∧ ¬ (q = e.1 ∧ t.vendor = .wyze)
  | .listed _ => fun q t => back q t ∧ ¬ (q = e.1 ∧ t.vendor = .eufy)
  | .dragOver tile _ => fun q t => back q t ∨
      q = e.1 ∧ (s.pages q).draggedTile = some t ∧ t ≠ tile ∧ t ∉ (s.pages q).grid
  | _ => back

/-- The tiles of the grid whose session is not the one under their key. -/
def Stale (page : Page κ) (tile : Tile κ) : Prop := tile ∈ page.grid ∧ ¬ Listed page tile

theorem Rearranged.stale (h : Rearranged page page') : Stale page' tile ↔ Stale page tile :=
  and_congr h.grid.mem_iff (not_congr h.listed)

/-- A rebuild leaves a stale tile of the other vendor, and makes none. -/
theorem stale_rebuilt (h : PageInv vendorOf page) {vendor : Vendor} {cameras : List (Camera κ)}
    (hproper : Proper vendorOf vendor cameras) :
    Stale (build vendor wyzeTileOrder page cameras) t ↔ Stale page t ∧ t.vendor ≠ vendor := by
  obtain ⟨ts, -, hpage⟩ := h.rebuilt hproper wyzeTileOrder
  have hnew : t ∈ ts → Listed (build vendor wyzeTileOrder page cameras) t :=
    fun ht => (hpage.streams t.mac t).mpr (.inl ⟨ht, rfl⟩)
  rw [Stale, hpage.grid.mem_iff, List.mem_append, List.mem_filter, decide_eq_true_iff, Stale]
  constructor
  · rintro ⟨⟨hmem, hne⟩ | ht, hnot⟩
    · exact ⟨⟨hmem, fun hl => hnot ((hpage.streams t.mac t).mpr (.inr ⟨hne, hl⟩))⟩, hne⟩
    · exact absurd (hnew ht) hnot
  · rintro ⟨⟨hmem, hnot⟩, hne⟩
    refine ⟨.inl ⟨hmem, hne⟩, fun hl => ?_⟩
    rcases (hpage.streams t.mac t).mp hl with ⟨ht, -⟩ | ⟨-, hl⟩
    · exact hne (hpage.vendors t ht)
    · exact hnot hl

theorem stale_dragOver (h : PageInv vendorOf page) {after : Bool} (htile : tile ∈ page.grid) :
    Stale (dragOver page tile after) t ↔
      Stale page t ∨ page.draggedTile = some t ∧ t ≠ tile ∧ t ∉ page.grid := by
  obtain ⟨hpage, hin⟩ | ⟨dragged, hdrag, hne, hout, -, hgrid⟩ := dragOver_cases after htile
  · rw [hpage.stale]
    exact (or_iff_left fun ⟨ht, hne, hout⟩ => hout (hin t ht hne)).symm
  · have hlisted : Listed (dragOver page tile after) t ↔ Listed page t := by
      rw [Listed, Listed, dragOver_streams]
    rw [Stale, Stale, hlisted, hgrid.mem_iff, List.mem_cons, hdrag, Option.some_inj]
    constructor
    · rintro ⟨rfl | hmem, hnot⟩
      · exact .inr ⟨rfl, hne, hout⟩
      · exact .inl ⟨hmem, hnot⟩
    · rintro (⟨hmem, hnot⟩ | ⟨rfl, -, -⟩)
      · exact ⟨.inr hmem, hnot⟩
      · exact ⟨.inl rfl, fun hl => hout (h.streams _ _ hl).2⟩

/-- The other events leave the tiles and their sessions where they are. -/
theorem rearranged_of_step {e : PageEvent κ}
    (hstep : pageStep vendorOf wyzeTileOrder page e = some page')
    (hrefreshed : ∀ cameras, e ≠ .refreshed cameras) (hlisted : ∀ cameras, e ≠ .listed cameras)
    (hdrag : ∀ tile after, e ≠ .dragOver tile after) : Rearranged page page' := by
  cases e with
  | refreshed cameras => exact absurd rfl (hrefreshed cameras)
  | listed cameras => exact absurd rfl (hlisted cameras)
  | dragStart tile =>
    obtain ⟨-, rfl⟩ := of_guard hstep
    exact ⟨rfl, .refl _, rfl⟩
  | dragOver tile after => exact absurd rfl (hdrag tile after)
  | dragEnd kept =>
    obtain ⟨-, rfl⟩ := of_guard hstep
    exact ⟨rfl, .refl _, rfl⟩
  | expand tile =>
    obtain ⟨htile, rfl⟩ := of_guard hstep
    exact expand_rearranged htile
  | start tile meets =>
    obtain ⟨-, rfl⟩ := of_guard hstep
    exact sessionStep_start.rearranged
  | stop tile =>
    obtain ⟨-, rfl⟩ := of_guard hstep
    exact sessionStep_stop.rearranged
  | startAll mac meets =>
    simp only [pageStep] at hstep
    split at hstep
    · cases hstep
    · obtain rfl := Option.some.inj hstep
      split_ifs
      · exact sessionStep_start.rearranged
      · exact .refl
  | person sn meets =>
    simp only [pageStep] at hstep
    split at hstep
    · obtain rfl := Option.some.inj hstep
      exact .refl
    · split at hstep <;> obtain rfl := Option.some.inj hstep
      · exact .refl
      · split_ifs
        · exact .refl
        · exact sessionStep_startPlayer.rearranged
  | stopAll =>
    obtain rfl := Option.some.inj hstep
    exact (foldl_stop _ page).1
  | answered tile ok =>
    obtain ⟨-, rfl⟩ := of_guard hstep
    exact sessionStep_answered.rearranged
  | retried tile =>
    obtain ⟨-, rfl⟩ := of_guard hstep
    exact sessionStep_startStream.rearranged
  | timedOut tile =>
    obtain ⟨-, rfl⟩ := of_guard hstep
    exact sessionStep_stop.rearranged

structure Inv (vendorOf : κ → Vendor) (φ : Page κ → Tile κ → Prop) (s : State κ)
    (noted : Nat → Tile κ → Prop) : Prop where
  pages : ∀ p, PageInv vendorOf (s.pages p)
  noted : ∀ p t, noted p t ↔ φ (s.pages p) t

/-- A step at one page, where what is noted of the other pages stays. -/
theorem Inv.atPage {φ : Page κ → Tile κ →
    Prop} {s s' : State κ} {noted noted' : Nat → Tile κ → Prop}
    {e : Nat × PageEvent κ} (h : Inv vendorOf φ s noted) (hstep : step vendorOf s e = some s')
    (hothers : ∀ q, q ≠ e.1 → ∀ t, noted' q t ↔ noted q t)
    (hself : ∀ page, pageStep vendorOf s.wyzeTileOrder (s.pages e.1) e.2 = some page →
      ∀ t, noted' e.1 t ↔ φ page t) : Inv vendorOf φ s' noted' := by
  obtain ⟨page, hpage, hpages, hsame, -⟩ := of_step hstep
  refine ⟨inv_step h.pages hstep, fun q t => ?_⟩
  by_cases hq : q = e.1
  · rw [hq, hpages]
    exact hself page hpage t
  · rw [hothers q hq, hsame q hq]
    exact h.noted q t

theorem Inv.back {s s' : State κ} {back : Nat → Tile κ → Prop} {e : Nat × PageEvent κ}
    (h : Inv vendorOf Stale s back) (hstep : step vendorOf s e = some s') :
    Inv vendorOf Stale s' (noteBack back s e s') := by
  obtain ⟨p, e⟩ := e
  have hp : ∀ t, back p t ↔ Stale (s.pages p) t := h.noted p
  have hsame : ∀ {page}, pageStep vendorOf s.wyzeTileOrder (s.pages p) e = some page →
      Rearranged (s.pages p) page → ∀ t, back p t ↔ Stale page t :=
    fun _ hpage t => (hp t).trans hpage.stale.symm
  refine h.atPage hstep (fun q hq t => ?_) fun page hpage t => ?_
  · have hq : q ≠ p := hq
    cases e <;> simp [noteBack, hq]
  · cases e with
    | refreshed cameras =>
      obtain ⟨hproper, rfl⟩ := of_guard hpage
      refine Iff.trans ?_ (stale_rebuilt (h.pages p) hproper).symm
      simp [noteBack, hp]
    | listed cameras =>
      obtain ⟨hproper, rfl⟩ := of_guard hpage
      refine Iff.trans ?_ (stale_rebuilt (h.pages p) hproper).symm
      simp [noteBack, hp]
    | dragOver tile after =>
      obtain ⟨htile, rfl⟩ := of_guard hpage
      refine Iff.trans ?_ (stale_dragOver (h.pages p) htile).symm
      simp [noteBack, hp]
    | _ => exact hsame hpage (rearranged_of_step hpage (by simp) (by simp) (by simp)) t

theorem Inv.init {φ : Page κ → Tile κ → Prop} (hblank : ∀ t, ¬ φ .blank t) :
    Inv vendorOf φ (init : State κ) fun _ _ => False :=
  ⟨fun _ => .blank, fun _ t => (iff_false_intro (hblank t)).symm⟩

/-- Every session of `streams` has its tile in the grid, and the buttons of a tile act upon the
session that the page's buttons and the notices act upon exactly when the tile has not been put
back. -/
theorem own_session_iff {s : State κ} {back : Nat → Tile κ → Prop}
    (h : Reachable (watch (step vendorOf) noteBack) (init, fun _ _ => False) (s, back)) (p : Nat) :
    (∀ k session, get (s.pages p).streams k = some session →
      session.mac = k ∧ session ∈ (s.pages p).grid) ∧
    ∀ tile ∈ (s.pages p).grid, get (s.pages p).streams tile.mac = some tile ↔ ¬ back p tile := by
  have hkeep : ∀ s back e t, Inv vendorOf Stale s back → step vendorOf s e = some t →
      Inv vendorOf Stale t (noteBack back s e t) := fun _ _ _ _ hs hstep => hs.back hstep
  have hblank : ∀ t : Tile κ, ¬ Stale .blank t := fun t ht => absurd ht.1 List.not_mem_nil
  have hinv : Inv vendorOf Stale s back := inv_of_watch hkeep (.init hblank) h
  refine ⟨(hinv.pages p).streams, fun tile htile => ?_⟩
  rw [hinv.noted p tile, Stale, not_and, not_not]
  exact ⟨fun hl _ => hl, fun hl => hl htile⟩

/-- Keys from 100 on are eufy serials. -/
def vendorOfNumber (k : Nat) : Vendor := if k < 100 then .wyze else .eufy

def porch (number : Nat) : Tile Nat := ⟨number, .wyze, ⟨1, true⟩⟩

def yard (number : Nat) : Tile Nat := ⟨number, .wyze, ⟨2, true⟩⟩

/-- The grid is refreshed while the tile of the porch is dragged, and the tile is then dragged over
one of the new ones. -/
def refreshedDrag : List (Nat × PageEvent Nat) :=
  [(0, .refreshed [⟨1, true⟩, ⟨2, true⟩]), (0, .listed [⟨101, true⟩]), (0, .dragStart (porch 0)),
    (0, .refreshed [⟨1, true⟩, ⟨2, true⟩]), (0, .dragOver (yard 4) true), (0, .dragEnd true)]

theorem own_session_iff_refreshed : ∃ s back,
    Reachable (watch (step vendorOfNumber) noteBack) (init, fun _ _ => False) (s, back) ∧
      (s.pages 0).grid.map Tile.number = [2, 3, 4, 0] ∧
      get (s.pages 0).streams 1 = some (porch 3) ∧ back 0 (porch 0) ∧ ¬ back 0 (porch 3) := by
  have hrun : ∃ s back,
      run (watch (step vendorOfNumber) noteBack) (init, fun _ _ => False) refreshedDrag =
        some (s, back) ∧ (s.pages 0).grid.map Tile.number = [2, 3, 4, 0] ∧
      porch 0 ∈ (s.pages 0).grid ∧ porch 3 ∈ (s.pages 0).grid ∧
      get (s.pages 0).streams 1 = some (porch 3) :=
    ⟨_, _, rfl, by decide, by decide, by decide, by decide⟩
  obtain ⟨s, back, hrun, hgrid, hold, hnew, hget⟩ := hrun
  have hreach : Reachable (watch (step vendorOfNumber) noteBack)
    (init, fun _ _ => False) (s, back) :=
    ⟨refreshedDrag, hrun⟩
  obtain ⟨-, hown⟩ := own_session_iff hreach 0
  refine ⟨s, back, hreach, hgrid, hget, ?_, (hown (porch 3) hnew).mp hget⟩
  by_contra hno
  exact absurd (hget.symm.trans ((hown (porch 0) hold).mpr hno)) (by decide)

/-- The sessions that have got a connection while they were not in `streams`, and that have not been
stopped since: the fetch of one was under way when its tile was removed, or the tile was put back
and its Start button was clicked. -/
def noteStray (stray : Nat → Tile κ → Prop) (s : State κ) (e : Nat × PageEvent κ) (_ : State κ) :
    Nat → Tile κ → Prop :=
  match e.2 with
  | .start tile meets => fun q t =>
    if q = e.1 ∧ t = tile then match tile.vendor with
      | .wyze => False
      | .eufy => if meets.mpegts ≠ .supported then stray q t
        else meets.creates = true ∧ ¬ Listed (s.pages q) tile
    else stray q t
  | .answered tile true => fun q t =>
    if q = e.1 ∧ t = tile then ¬ Listed (s.pages q) tile else stray q t
  | .stop tile | .retried tile | .timedOut tile => fun q t => stray q t ∧ ¬ (q = e.1 ∧ t = tile)
  | _ => stray

/-- The sessions that have a connection and are not found in `streams`. -/
def Astray (page : Page κ) (tile : Tile κ) : Prop := page.live tile = true ∧ ¬ Listed page tile

/-- A rebuild stops what it removes. -/
theorem astray_rebuilt (h : PageInv vendorOf page) {vendor : Vendor} {cameras : List (Camera κ)}
    (hproper : Proper vendorOf vendor cameras) :
    Astray (build vendor wyzeTileOrder page cameras) t ↔ Astray page t := by
  obtain ⟨ts, -, hpage⟩ := h.rebuilt hproper wyzeTileOrder
  have hlisted : Listed (build vendor wyzeTileOrder page cameras) t ↔
      t ∈ ts ∨ t.vendor ≠ vendor ∧ Listed page t := by
    rw [Listed, hpage.streams, and_iff_left rfl]
    rfl
  have hnew : t ∈ ts → page.live t ≠ true := by
    intro ht hlive
    exact absurd (hpage.numbers t ht).1 (Nat.not_le_of_lt (h.known t (.inl hlive)))
  rw [Astray, hpage.live, hlisted, Astray]
  constructor
  · rintro ⟨⟨hlive, hkept⟩, hnot⟩
    refine ⟨hlive, fun hl => ?_⟩
    by_cases hv : t.vendor = vendor
    · exact hkept ⟨hv, hl⟩
    · exact hnot (.inr ⟨hv, hl⟩)
  · rintro ⟨hlive, hnot⟩
    refine ⟨⟨hlive, fun hl => hnot hl.2⟩, ?_⟩
    rintro (ht | ⟨-, hl⟩)
    · exact hnew ht hlive
    · exact hnot hl

/-- What a step of one session does to the sessions that are astray. -/
theorem SessionStep.astray (h : SessionStep page tile page') : Astray page' t ↔
    if t = tile then page'.live tile = true ∧ ¬ Listed page tile else Astray page t := by
  rw [Astray, h.rearranged.listed]
  split_ifs with ht
  · rw [ht]
  · rw [(h.others t ht).1]
    rfl

theorem SessionStep.astray_of_listed (h : SessionStep page tile page') (hl : Listed page tile) :
    Astray page' t ↔ Astray page t := by
  rw [h.astray]
  split_ifs with ht
  · rw [ht]
    exact iff_of_false (fun ha => ha.2 hl) fun ha => ha.2 hl
  · exact Iff.rfl

theorem SessionStep.astray_of_off (h : SessionStep page tile page')
    (hoff : page'.live tile = false) :
    Astray page' t ↔ Astray page t ∧ ¬ t = tile := by
  rw [h.astray, hoff]
  split_ifs with ht <;> simp [ht]

theorem startStream_live : (startStream page tile).live tile = false := by
  unfold startStream
  split_ifs <;> simp [stop]

theorem startPlayer_live {meets : EufyStream.Page} :
    (startPlayer page tile meets).live tile = true ↔
      if meets.mpegts ≠ .supported then page.live tile = true else meets.creates = true := by
  unfold startPlayer
  split_ifs with hsupported hcreates
  · rfl
  · simp [connect, hcreates]
  · simp [stop, hcreates]

/-- A start of a session that is not in `streams` leaves it astray only where it makes a player. -/
theorem astray_start {meets : EufyStream.Page} : Astray (start page tile meets) t ↔
    if t = tile then match tile.vendor with
      | .wyze => False
      | .eufy => if meets.mpegts ≠ .supported then Astray page t
        else meets.creates = true ∧ ¬ Listed page tile
    else Astray page t := by
  rw [sessionStep_start.astray]
  by_cases ht : t = tile
  · rw [if_pos ht, if_pos ht, start]
    cases tile.vendor with
    | wyze => simp [startStream_live]
    | eufy =>
      simp only [startPlayer_live]
      split_ifs
      · rw [ht]
        rfl
      · rfl
  · rw [if_neg ht, if_neg ht]

/-- The end of a fetch makes the connection of a session that is not in `streams` any more. -/
theorem astray_answered {ok : Bool} : Astray (answered page tile ok) t ↔
    if t = tile ∧ ok = true then ¬ Listed page tile else Astray page t := by
  rw [sessionStep_answered.astray]
  cases ok with
  | true => simp [answered, connect]
  | false =>
    have hsame : (answered page tile false).live tile = page.live tile := rfl
    rw [hsame, if_neg (not_and_of_not_right _ Bool.false_ne_true)]
    split_ifs with ht
    · rw [ht]
      rfl
    · exact Iff.rfl

theorem Inv.stray {s s' : State κ} {stray : Nat → Tile κ → Prop} {e : Nat × PageEvent κ}
    (h : Inv vendorOf Astray s stray) (hstep : step vendorOf s e = some s') :
    Inv vendorOf Astray s' (noteStray stray s e s') := by
  obtain ⟨p, e⟩ := e
  have hp : ∀ t, stray p t ↔ Astray (s.pages p) t := h.noted p
  have hlisted : ∀ {k session}, get (s.pages p).streams k = some session → ∀ {page},
      SessionStep (s.pages p) session page → ∀ t, stray p t ↔ Astray page t :=
    fun hget _ hpage t => (hp t).trans (hpage.astray_of_listed ((h.pages p).listed hget)).symm
  refine h.atPage hstep (fun q hq t => ?_) fun page hpage t => ?_
  · have hq : q ≠ p := hq
    cases e with
    | answered tile ok => cases ok <;> simp [noteStray, hq]
    | _ => simp [noteStray, hq]
  · cases e with
    | refreshed cameras =>
      obtain ⟨hproper, rfl⟩ := of_guard hpage
      exact (hp t).trans (astray_rebuilt (h.pages p) hproper).symm
    | listed cameras =>
      obtain ⟨hproper, rfl⟩ := of_guard hpage
      exact (hp t).trans (astray_rebuilt (h.pages p) hproper).symm
    | dragStart tile =>
      obtain ⟨-, rfl⟩ := of_guard hpage
      exact hp t
    | dragOver tile after =>
      obtain ⟨htile, rfl⟩ := of_guard hpage
      rw [Astray, Listed, dragOver_streams, dragOver_live]
      exact hp t
    | dragEnd kept =>
      obtain ⟨-, rfl⟩ := of_guard hpage
      exact hp t
    | expand tile =>
      obtain ⟨htile, rfl⟩ := of_guard hpage
      exact hp t
    | start tile meets =>
      obtain ⟨-, rfl⟩ := of_guard hpage
      simp only [noteStray, true_and, hp]
      exact astray_start.symm
    | stop tile =>
      obtain ⟨-, rfl⟩ := of_guard hpage
      rw [sessionStep_stop.astray_of_off (by simp [stop])]
      simp [noteStray, hp]
    | startAll mac meets =>
      simp only [pageStep] at hpage
      split at hpage
      · cases hpage
      · rename_i session hget
        obtain rfl := Option.some.inj hpage
        split_ifs
        · exact hlisted hget sessionStep_start t
        · exact hp t
    | person sn meets =>
      simp only [pageStep] at hpage
      split at hpage
      · obtain rfl := Option.some.inj hpage
        exact hp t
      · rename_i session hget
        split at hpage <;> obtain rfl := Option.some.inj hpage
        · exact hp t
        · split_ifs
          · exact hp t
          · exact hlisted hget sessionStep_startPlayer t
    | stopAll =>
      obtain rfl := Option.some.inj hpage
      have hsame : Listed (stopAll (s.pages p)) t ↔ Listed (s.pages p) t :=
        (foldl_stop _ _).1.listed
      rw [Astray, hsame, (h.pages p).stopAll_live, and_assoc, and_self]
      exact hp t
    | answered tile ok =>
      obtain ⟨-, rfl⟩ := of_guard hpage
      rw [astray_answered]
      cases ok <;> simp [noteStray, hp]
    | retried tile =>
      obtain ⟨-, rfl⟩ := of_guard hpage
      rw [sessionStep_startStream.astray_of_off startStream_live]
      simp [noteStray, hp]
    | timedOut tile =>
      obtain ⟨-, rfl⟩ := of_guard hpage
      rw [sessionStep_stop.astray_of_off (by simp [stop])]
      simp [noteStray, hp]

/-- After Stop All exactly the strays of the page still have a connection. -/
theorem stopAll_leaves_strays {s s' : State κ} {stray : Nat → Tile κ → Prop}
    (h : Reachable (watch (step vendorOf) noteStray) (init, fun _ _ => False) (s, stray)) {p : Nat}
    (hstep : step vendorOf s (p, .stopAll) = some s') (tile : Tile κ) :
    (s'.pages p).live tile = true ↔ stray p tile := by
  have hkeep : ∀ s stray e t, Inv vendorOf Astray s stray → step vendorOf s e = some t →
      Inv vendorOf Astray t (noteStray stray s e t) := fun _ _ _ _ hs hstep => hs.stray hstep
  have hblank : ∀ t : Tile κ, ¬ Astray .blank t := fun t ht => absurd ht.1 Bool.false_ne_true
  have hinv : Inv vendorOf Astray s stray := inv_of_watch hkeep (.init hblank) h
  obtain ⟨page, hpage, hself, -⟩ := of_step hstep
  obtain rfl := Option.some.inj hpage
  rw [hself, (hinv.pages p).stopAll_live]
  exact (hinv.noted p tile).symm

def startedTwice : List (Nat × PageEvent Nat) :=
  refreshedDrag ++ [(0, .start (porch 0) ⟨.supported, true, true⟩), (0, .answered (porch 0) true),
    (0, .start (porch 3) ⟨.supported, true, true⟩), (0, .answered (porch 3) true)]

theorem stopAll_leaves_strays_refreshed : ∃ s s' stray,
    Reachable (watch (step vendorOfNumber) noteStray) (init, fun _ _ => False) (s, stray) ∧
      step vendorOfNumber s (0, .stopAll) = some s' ∧
      (s.pages 0).live (porch 0) = true ∧ (s.pages 0).live (porch 3) = true ∧
      stray 0 (porch 0) ∧ ¬ stray 0 (porch 3) := by
  have hrun : ∃ s s' stray,
      run (watch (step vendorOfNumber) noteStray) (init, fun _ _ => False) startedTwice =
        some (s, stray) ∧ step vendorOfNumber s (0, .stopAll) = some s' ∧
      (s.pages 0).live (porch 0) = true ∧ (s.pages 0).live (porch 3) = true ∧
      (s'.pages 0).live (porch 0) = true ∧ (s'.pages 0).live (porch 3) = false :=
    ⟨_, _, _, rfl, rfl, by decide, by decide, by decide, by decide⟩
  obtain ⟨s, s', stray, hrun, hstep, hlive0, hlive3, hafter0, hafter3⟩ := hrun
  have hreach : Reachable (watch (step vendorOfNumber) noteStray)
    (init, fun _ _ => False) (s, stray) :=
    ⟨startedTwice, hrun⟩
  have hleft := stopAll_leaves_strays hreach hstep
  refine ⟨s, s', stray, hreach, hstep, hlive0, hlive3, (hleft (porch 0)).mp hafter0,
    fun hstray => ?_⟩
  exact absurd ((hleft (porch 3)).mpr hstray) (by rw [hafter3]; decide)

end WyzeCams.Dashboard
