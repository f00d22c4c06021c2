import WyzeCams.Browser.Dashboard

/-! The order of the tiles: what the end of a drag writes to `localStorage` is what the pages show
that are built from then on. -/
namespace WyzeCams.Dashboard
open EventMachine OrderedMap KeyOrder

variable {κ : Type} [DecidableEq κ] {vendorOf : κ → Vendor}

/-- The pages whose grid has been built, or written to `localStorage`, and has not been changed
since, and neither has what is written there. -/
def noteSettled (settled : Nat → Prop) (s : State κ) (e : Nat × PageEvent κ) (t : State κ) :
    Nat → Prop :=
  match e.2 with
  | .refreshed _ | .listed _ => fun q => q = e.1 ∨ settled q
  | .dragEnd true => fun q => q = e.1
  | _ => fun q => settled q ∧ (t.pages q).grid = (s.pages q).grid

/-- The cameras that `wyzeTileOrder` names come last, and in its order; one that it names twice
stands where it is named last. -/
def InOrder (wyzeTileOrder : Option (List κ)) (page : Page κ) : Prop :=
  order page = (order page).filter (· ∉ wyzeTileOrder.getD []) ++
    (wyzeTileOrder.getD []).dedup.filter (· ∈ order page)

/-- `applySavedOrder` of a page without two tiles of one camera. -/
theorem inOrder_applySavedOrder (wyzeTileOrder : Option (List κ)) {page : Page κ}
    (h : (order page).Nodup) : InOrder wyzeTileOrder (applySavedOrder wyzeTileOrder page) := by
  have hmem : ∀ k, k ∈ order (applySavedOrder wyzeTileOrder page) ↔ k ∈ order page :=
    fun k => ((arrange_perm (wyzeTileOrder.getD []) page.grid).map Tile.mac).mem_iff
  have harrange : order (applySavedOrder wyzeTileOrder page) =
      (order page).filter (· ∉ wyzeTileOrder.getD []) ++
        (wyzeTileOrder.getD []).dedup.filter (· ∈ order page) := map_arrange h
  have hback : (wyzeTileOrder.getD []).dedup.filter
    (· ∈ order (applySavedOrder wyzeTileOrder page)) =
      (wyzeTileOrder.getD []).dedup.filter (· ∈ order page) :=
    List.filter_congr fun k _ => by simp only [hmem]
  have hfront : (order (applySavedOrder wyzeTileOrder page)).filter (· ∉ wyzeTileOrder.getD []) =
      (order page).filter (· ∉ wyzeTileOrder.getD []) := by
    have hnone : ((wyzeTileOrder.getD []).dedup.filter (· ∈ order page)).filter
        (· ∉ wyzeTileOrder.getD []) = [] := by
      rw [List.filter_eq_nil_iff]
      intro k hk
      have hk : k ∈ wyzeTileOrder.getD [] := List.mem_dedup.mp (List.mem_of_mem_filter hk)
      simpa using hk
    rw [harrange, List.filter_append, hnone, List.append_nil, List.filter_filter]
    exact List.filter_congr fun k _ => by rw [Bool.and_self]
  rw [InOrder, hfront, hback]
  exact harrange

/-- What the end of a drag writes is the order of its own page. -/
theorem inOrder_saved {page : Page κ} (h : (order page).Nodup) :
    InOrder (some (order page)) page := by
  have hnone : (order page).filter (· ∉ order page) = [] := by
    rw [List.filter_eq_nil_iff]
    intro k hk
    simpa using hk
  have hall : (order page).dedup.filter (· ∈ order page) = order page := by
    rw [h.dedup, List.filter_eq_self]
    exact fun k hk => decide_eq_true hk
  rw [InOrder, Option.getD_some, hnone, hall, List.nil_append]

def OrderInv (s : State κ) (settled : Nat → Prop) : Prop :=
  ∀ p, settled p → (order (s.pages p)).Nodup → InOrder s.wyzeTileOrder (s.pages p)

theorem inOrder_build {vendor : Vendor} {wyzeTileOrder : Option (List κ)} {page : Page κ}
    {cameras : List (Camera κ)} (h : (order (build vendor wyzeTileOrder page cameras)).Nodup) :
    InOrder wyzeTileOrder (build vendor wyzeTileOrder page cameras) := by
  refine inOrder_applySavedOrder wyzeTileOrder ?_
  exact ((arrange_perm (wyzeTileOrder.getD []) _).map Tile.mac).nodup_iff.mp h

theorem OrderInv.step {s t : State κ} {settled : Nat → Prop} {e : Nat × PageEvent κ}
    (h : OrderInv s settled) (hstep : step vendorOf s e = some t) :
    OrderInv t (noteSettled settled s e t) := by
  obtain ⟨p, e⟩ := e
  obtain ⟨page, hpage, hself, hothers, hsaved⟩ := of_step hstep
  have hself : t.pages p = page := hself
  have hothers : ∀ q, q ≠ p → t.pages q = s.pages q := hothers
  -- a rebuild settles its page, and does not write
  have hbuilt : ∀ vendor cameras, page = build vendor s.wyzeTileOrder (s.pages p) cameras →
      t.wyzeTileOrder = s.wyzeTileOrder → OrderInv t fun q => q = p ∨ settled q := by
    intro vendor cameras hbuild hstored q hq hnodup
    rw [hstored]
    by_cases hqp : q = p
    · subst hqp
      rw [hself, hbuild] at hnodup ⊢
      exact inOrder_build hnodup
    · rw [hothers q hqp] at hnodup ⊢
      exact h q (hq.resolve_left hqp) hnodup
  -- where nothing is written, a page whose grid stays is in order as it was
  have hkept : t.wyzeTileOrder = s.wyzeTileOrder →
      OrderInv t fun q => settled q ∧ (t.pages q).grid = (s.pages q).grid := by
    intro hstored q hq hnodup
    have horder : order (t.pages q) = order (s.pages q) := congrArg (List.map Tile.mac) hq.2
    rw [InOrder, horder, hstored]
    rw [horder] at hnodup
    exact h q hq.1 hnodup
  cases e with
  | refreshed cameras => exact hbuilt .wyze cameras (of_guard hpage).2 hsaved
  | listed cameras => exact hbuilt .eufy cameras (of_guard hpage).2 hsaved
  | dragEnd kept =>
    cases kept with
    | false => exact hkept hsaved
    | true =>
      intro q hq hnodup
      obtain rfl : q = p := hq
      have horder : order (t.pages q) = order (s.pages q) := by
        rw [hself, (of_guard hpage).2]
        rfl
      have hwritten : t.wyzeTileOrder = some (order (t.pages q)) :=
        hsaved.trans (by rw [horder]; rfl)
      rw [hwritten]
      exact inOrder_saved hnodup
  | _ => exact hkept hsaved

/-- Whatever the pages of the browser do, and in whichever order their lists of cameras come in: a
page that is settled, and has no two tiles of one camera, shows the cameras that have never been
saved and then those of the saved order, in that order. -/
theorem shows_saved_order {s : State κ} {settled : Nat → Prop}
    (h : Reachable (watch (step vendorOf) noteSettled) (init, fun _ => False) (s, settled))
    {p : Nat}
    (hp : settled p) (hnodup : (order (s.pages p)).Nodup) :
    order (s.pages p) = (order (s.pages p)).filter (· ∉ s.wyzeTileOrder.getD []) ++
      (s.wyzeTileOrder.getD []).dedup.filter (· ∈ order (s.pages p)) := by
  have hkeep : ∀ s settled e t, OrderInv s settled → step vendorOf s e = some t →
      OrderInv t (noteSettled settled s e t) := fun _ _ _ _ hs hstep => hs.step hstep
  have hinit : OrderInv (init : State κ) fun _ => False := fun _ hp => absurd hp id
  have hinv : OrderInv s settled := inv_of_watch hkeep hinit h
  exact hinv p hp hnodup

/-- On one page the eufy camera is dragged in front of the others. On another the eufy list, with a
new camera in it, comes in first. -/
def secondPage : List (Nat × PageEvent Nat) :=
  [(0, .refreshed [⟨1, true⟩, ⟨2, true⟩]), (0, .listed [⟨101, true⟩]),
    (0, .dragStart ⟨2, .eufy, ⟨101, true⟩⟩), (0, .dragOver ⟨0, .wyze, ⟨1, true⟩⟩ false),
    (0, .dragEnd true), (1, .listed [⟨101, true⟩, ⟨102, true⟩]),
    (1, .refreshed [⟨2, true⟩, ⟨1, false⟩, ⟨3, true⟩])]

theorem shows_saved_order_second : ∃ s settled,
    Reachable (watch (step fun k => if k < 100 then Vendor.wyze else .eufy) noteSettled)
        (init, fun _ => False) (s, settled) ∧
      s.wyzeTileOrder = some [101, 1, 2] ∧ order (s.pages 1) = [102, 3] ++ [101, 1, 2] := by
  have hrun : ∃ s settled,
      run (watch (step fun k => if k < 100 then Vendor.wyze else .eufy) noteSettled)
          (init, fun _ => False) secondPage = some (s, settled) ∧ settled 1 ∧
        (order (s.pages 1)).Nodup ∧ s.wyzeTileOrder = some [101, 1, 2] ∧
        (order (s.pages 1)).filter (· ∉ s.wyzeTileOrder.getD []) = [102, 3] ∧
        (s.wyzeTileOrder.getD []).dedup.filter (· ∈ order (s.pages 1)) = [101, 1, 2] :=
    ⟨_, _, rfl, .inl rfl, by decide, by decide, by decide, by decide⟩
  obtain ⟨s, settled, hrun, hsettled, hnodup, hstored, hfront, hback⟩ := hrun
  have hshown := shows_saved_order ⟨secondPage, hrun⟩ hsettled hnodup
  rw [hfront, hback] at hshown
  exact ⟨s, settled, ⟨secondPage, hrun⟩, hstored, hshown⟩

end WyzeCams.Dashboard
