import WyzeCams.Eufy.Ownership

/-! Entries of `sessions` against the sockets of their viewers. -/
namespace WyzeCams.Eufy
open Function EventMachine

/-- Nothing is outstanding: every `startSession` has returned, no socket is about to report its
close, and no snapshot is under way. -/
structure Quiet (s : State) : Prop where
  returned : ∀ viewer ∈ s.viewers, viewer.phase = .returned
  closed : ∀ viewer ∈ s.viewers, viewer.readyState ≠ .CLOSING
  started : ∀ c ∈ s.calls, ∀ g, c ≠ .starting g
  timers : ∀ r ∈ s.refreshes, r.timer = false
  captures : ∀ c ∈ s.captures, c.phase = .finished

/-- In a quiet state every entry belongs to a viewer whose socket is open. -/
def NoOrphan (s : State) : Prop :=
  Quiet s → ∀ sn v, holder s sn = some v → (s.viewers[v]?).map Viewer.readyState = some .OPEN

/-- A viewer registers only while its socket has not been closed. -/
def RegistersOpen (s : State) : Event → Prop
  | .stopSettled v => (s.viewers[v]?).map Viewer.readyState ≠ some .CLOSED
  | _ => True

def HasClosed (s : State) (v : Nat) : Prop :=
  (s.viewers[v]?).map Viewer.readyState = some .CLOSED

structure Attached (s : State) : Prop where
  registered : Registered s
  unclosed : ∀ sn v, holder s sn = some v → ¬ HasClosed s v

theorem attached_init : Attached init :=
  ⟨registered_init, fun sn v hv => by simp [holder, init] at hv⟩

theorem hasClosed_set {s : State} {v w : Nat} {x y : Viewer} (hv : s.viewers[v]? = some x)
    (h : ((s.viewers.set v y)[w]?).map Viewer.readyState = some .CLOSED)
    (hxy : y.readyState = .CLOSED → x.readyState = .CLOSED) : HasClosed s w := by
  rw [List.getElem?_set] at h
  split_ifs at h with he hlt
  · have hy : y.readyState = .CLOSED := by simpa using h
    rw [HasClosed, ← he, hv, Option.map_some, hxy hy]
  · simp at h
  · exact h

/-- Only its own close event closes the socket of a viewer. -/
theorem hasClosed_step {s t : State} {e : Event} (h : step s e = some t) {w : Nat}
    (hw : HasClosed t w) : HasClosed s w ∨ e = .viewerClosed w := by
  cases transition_of_step h with
  | viewerConnects sn =>
    left
    have hw' : ((s.viewers ++ [⟨sn, .OPEN, .stopping⟩])[w]?).map Viewer.readyState =
        some .CLOSED := by simpa [HasClosed, startSession] using hw
    rw [List.getElem?_append] at hw'
    split_ifs at hw' with hlt
    · exact hw'
    · rw [List.getElem?_singleton] at hw'
      split_ifs at hw' <;> simp at hw'
  | registers hv hp => exact .inl (hasClosed_set hv hw id)
  | connects hv hp => exact .inl (hasClosed_set hv hw id)
  | starts hv hp => exact .inl (hasClosed_set hv hw id)
  | connectFails hv hp =>
    refine .inl (hasClosed_set hv hw fun hc => ?_)
    dsimp only at hc
    split_ifs at hc
    exact hc
  | startFails hv hp =>
    refine .inl (hasClosed_set hv hw fun hc => ?_)
    dsimp only at hc
    split_ifs at hc
    exact hc
  | peerCloses hv ho => exact .inl (hasClosed_set hv hw fun hc => by simp at hc)
  | @closes v viewer hv ho =>
    by_cases he : v = w
    · exact .inr (by rw [he])
    · left
      have hw' : ((s.viewers.set v { viewer with readyState := .CLOSED })[w]?).map
          Viewer.readyState = some .CLOSED := by simpa [HasClosed, viewerClosed] using hw
      rwa [List.getElem?_set_ne he] at hw'
  | _ => exact .inl (by simpa [HasClosed] using hw)

theorem Attached.step {s t : State} {e : Event} (hs : Attached s) (h : step s e = some t)
    (hc : RegistersOpen s e) : Attached t := by
  have ht := registered_step hs.registered h
  refine ⟨ht, fun sn v hv hcl => ?_⟩
  have heff := ownerEffect h
  obtain hcl | rfl := hasClosed_step h hcl
  · -- the owner was closed before, so it must have registered in this step
    generalize holder t = o at heff hv
    cases heff with
    | same e hown => exact hs.unclosed sn v hv hcl
    | connects sn' =>
      by_cases he : sn = sn'
      · simp [he] at hv
      · exact hs.unclosed sn v (by simpa [he] using hv) hcl
    | @ends _ viewer e hw hown hend =>
      by_cases he : sn = viewer.sn
      · simp [he] at hv
      · exact hs.unclosed sn v (by simpa [he] using hv) hcl
    | @registers w viewer hw hp =>
      by_cases he : sn = viewer.sn
      · simp only [he, update_self, Option.some.injEq] at hv
        rw [hv] at hc
        exact hc hcl
      · exact hs.unclosed sn v (by simpa [he] using hv) hcl
  · -- the close event of the owner has deleted the entry of its camera
    obtain ⟨viewer, hw, hsn, -⟩ := ht sn v hv
    cases transition_of_step h with
    | @closes _ x hx ho =>
      have hviewer : viewer.sn = x.sn := by
        rw [viewerClosed, stopSession_viewers] at hw
        rw [List.getElem?_set_self (List.getElem?_eq_some_iff.mp hx).1] at hw
        cases hw
        rfl
      rw [holder_viewerClosed, ← hviewer, hsn] at hv
      simp at hv

theorem Attached.noOrphan {s : State} (hs : Attached s) : NoOrphan s := by
  intro hq sn v hv
  obtain ⟨viewer, hw, -, -⟩ := hs.registered sn v hv
  have hclosing := hq.closed viewer (List.mem_of_getElem? hw)
  have hclosed := hs.unclosed sn v hv
  simp only [HasClosed, hw, Option.map_some, Option.some.injEq] at hclosed ⊢
  cases hr : viewer.readyState with
  | OPEN => rfl
  | CLOSING => exact absurd hr hclosing
  | CLOSED => exact absurd hr hclosed

/-- Along every interleaving in which no viewer registers after its socket has been closed, no
quiet state holds an entry of a viewer that has left. -/
theorem noOrphan_along (es : List Event)
    (h : Along step (fun s e _ => RegistersOpen s e) init es) :
    Along step (fun _ _ t => NoOrphan t) init es := by
  refine along_of_along (Q := fun s e _ => RegistersOpen s e) ?_ attached_init es h
  intro s e t hs hstep hc
  have ht := hs.step hstep hc
  exact ⟨ht.noOrphan, ht⟩

instance (s : State) (e : Event) : Decidable (RegistersOpen s e) := by
  cases e <;> unfold RegistersOpen <;> infer_instance

/-- The viewer that has taken over leaves again. -/
theorem noOrphan_along_takeover :
    Along step (fun _ _ t => NoOrphan t) init (takeover ++ [.peerCloses 1, .viewerClosed 1]) :=
  noOrphan_along _ (by decide)

/-- A second viewer takes a camera over from one that is streaming, and leaves while its
`startSession` waits for the livestream of the first one to stop. -/
def leaving : List Event :=
  [.viewerConnects "T8010", .stopSettled 0, .connectSettled 0 true, .startSettled 0 true,
    .viewerConnects "T8010", .peerCloses 1, .viewerClosed 1, .stopSettled 1, .connectSettled 1 true]

/-- The session that is registered for the viewer that has left stays for good. -/
theorem closed_viewer_registers :
    ¬ Along step (fun _ _ t => NoOrphan t) init (leaving ++ [.startSettled 1 true]) := by
  intro h
  have hlast := along_last rfl rfl h
  have hquiet := hlast ⟨by decide, by decide, fun c hc => absurd hc List.not_mem_nil, by decide,
    by decide⟩
  exact absurd (hquiet "T8010" 1 rfl) (by decide)

end WyzeCams.Eufy
