import Mathlib.Data.Nat.Find
import WyzeCams.Api.AllOrNothing

/-! Whether a refresh sends a refresh token that it has already replaced. The body of its POSTs is
built once, before the first attempt. -/
namespace WyzeCams.Api.Replay
open Async

def Server.refreshSights (v : Server) (cfg : Config) (fuel : Nat) (s : State) :
    List (Sight v.env) :=
  sights v.env (refreshToken cfg fuel) s Progress.start

/-- Each POST of the refresh carries the refresh token that is in memory when it is sent. -/
def SendsCurrent (v : Server) (cfg : Config) (s : State) : Prop :=
  ∀ fuel, ∀ y ∈ v.refreshSights cfg fuel s, ∀ url body, y.op = .post url body →
    ∃ a, body = .refresh a y.state.refresh_token

/-- A POST is sent only as long as no answer has brought another refresh token. -/
def SendsClean (v : Server) (cfg : Config) (s : State) : Prop :=
  ∀ fuel, ∀ y ∈ v.refreshSights cfg fuel s, ∀ url body, y.op = .post url body →
    (v.exchange refreshUrl s).Clean y.mem.taken.posts

variable {v : Server} {cfg : Config} {s : State} {fuel : Nat}

theorem urlOf_exchange (k : Nat) : (v.exchange refreshUrl s).urlOf k = refreshUrl := by
  rw [Exchange.urlOf]
  split_ifs
  · rfl
  · rfl

/-- Before the POST that follows `n` answers one was sent after every smaller number of them. -/
theorem sights_consecutive {α : Type} {p : Method α} {t : State} {m : Progress} {n : Nat}
    {y : Sight v.env} (hy : y ∈ sights v.env p t m) {url : String} {body : Body}
    (hop : y.op = .post url body) (hm : m.taken.posts ≤ n) (hn : n ≤ y.mem.taken.posts) :
    ∃ z ∈ sights v.env p t m, (∃ url body, z.op = .post url body) ∧ z.mem.taken.posts = n := by
  induction p generalizing t m with
  | ret a => cases hy
  | raise e => cases hy
  | read k ih => exact ih t hy hm
  | write t' k ih => exact ih hy hm
  | mark y k ih => exact ih hy hm
  | await op k ih =>
    rcases List.mem_cons.mp hy with rfl | hrest
    · refine ⟨_, List.mem_cons_self, ⟨url, body, hop⟩, ?_⟩
      exact Nat.le_antisymm hm hn
    · by_cases hnext : (m.taken.count op).posts ≤ n
      · obtain ⟨z, hz, hpost⟩ := ih _ hrest hnext
        exact ⟨z, List.mem_cons_of_mem _ hz, hpost⟩
      · cases op with
        | post dest body' =>
          have hlast : m.taken.posts = n := by
            have hlt : n < m.taken.posts + 1 := Nat.lt_of_not_le hnext
            omega
          exact ⟨_, List.mem_cons_self, ⟨dest, body', rfl⟩, hlast⟩
        | _ => exact absurd hm hnext
  | detach op q k _ ih => exact ih hy hm
  | stuck => cases hy

/-- What a POST of a refresh carries. -/
theorem sight_obliged {y : Sight v.env} (hy : y ∈ v.refreshSights cfg fuel s) {url : String}
    {body : Body} (hop : y.op = .post url body) :
    ∃ a r, body = .refresh a r ∧
      y.state.refresh_token = ((v.exchange refreshUrl s).pair y.mem.taken.posts).2 ∧
      (v.exchange refreshUrl s).Obliged y.mem.taken.posts r := by
  have hfresh : ¬ (v.exchange refreshUrl s).Fresh 0 := by
    rintro ⟨k, hk, -⟩
    cases hk
  have hreplays : Replays (v.exchange refreshUrl s) (replayRole _ True) True
      ((v.exchange refreshUrl s).refresh cfg fuel) (refreshToken cfg fuel) :=
    replays_refreshToken fuel
  have hwp := (hreplays 0 0 rfl hfresh fun _ => trivial).holds s Ledger.start (standing_start rfl)
  have hlinked : Linked Progress.start Ledger.start := rfl
  obtain ⟨g, hl, hallowed, hinv⟩ :=
    wp_sights (keeps_server (v.exchange refreshUrl s)) hlinked hwp y hy
  have htaken : y.mem.taken = g.taken := hl
  rw [hop] at hallowed hinv
  obtain ⟨hurl, hbody⟩ := hallowed
  rcases hbody with ⟨a, r, hbody⟩ | ⟨hlogin, -⟩
  · obtain ⟨htokens, hobliged⟩ := hinv a r (congrArg some hbody)
    have hposts : ((replayMonitor (v.exchange refreshUrl s)).note g
        (.ask (.post url body))).taken.posts = y.mem.taken.posts := by
      rw [htaken]
      rfl
    rw [hposts] at htokens hobliged
    exact ⟨a, r, hbody, congrArg Prod.snd htokens, hobliged⟩
  · rw [hurl, urlOf_exchange] at hlogin
    exact absurd hlogin (by decide)

theorem sendsCurrent_of_clean (h : SendsClean v cfg s) : SendsCurrent v cfg s := by
  intro fuel y hy url body hop
  obtain ⟨a, r, hbody, htoken, hobliged⟩ := sight_obliged hy hop
  have hcurrent := hobliged.1 (h fuel y hy url body hop)
  exact ⟨a, by rw [htoken, hcurrent, hbody]⟩

/-- The first POST after the first answer that rotates carries the token that it replaced. -/
theorem sendsClean_of_current (h : SendsCurrent v cfg s) : SendsClean v cfg s := by
  classical
  intro fuel y hy url body hop
  by_contra hnot
  have hsome : ∃ k, k < y.mem.taken.posts ∧ (v.exchange refreshUrl s).Rotates k := by
    simpa [Exchange.Clean] using hnot
  obtain ⟨hlt, hrotates⟩ := Nat.find_spec hsome
  have hfirst : (v.exchange refreshUrl s).Clean (Nat.find hsome) :=
    fun j hj hrot => Nat.find_min hsome hj ⟨hj.trans hlt, hrot⟩
  obtain ⟨z, hz, ⟨url', body', hpost⟩, hposts⟩ :=
    sights_consecutive hy hop (Nat.zero_le _) hlt
  obtain ⟨a, r, hbody, htoken, hobliged⟩ := sight_obliged hz hpost
  obtain ⟨a', hcurrent⟩ := h fuel z hz url' body' hpost
  have hfresh : (v.exchange refreshUrl s).Fresh z.mem.taken.posts :=
    ⟨Nat.find hsome, hposts, hfirst, hrotates⟩
  have hne := hobliged.2 hfresh
  rw [hbody, Body.refresh.injEq] at hcurrent
  exact hne (htoken.symm.trans hcurrent.2.symm)

/-- For every server, every outcome of the writes and every state: each POST of `refreshToken`
carries the refresh token in memory exactly when none is sent after an answer that brought another
one. -/
theorem sendsCurrent_iff (v : Server) (cfg : Config) (s : State) :
    SendsCurrent v cfg s ↔ SendsClean v cfg s :=
  ⟨sendsClean_of_current, sendsCurrent_of_clean⟩

def rotating : Server :=
  ⟨fun _ => withBody [("data", .obj [("access_token", .str "B"), ("refresh_token", .str "b")])],
    fun _ => some ⟨"Error", [.text "ENOSPC"]⟩, fun _ => 5000⟩

def holding : State := { init 5000 none with access_token := .str "A", refresh_token := .str "a" }

/-- The second attempt sends "a" although "b" is in memory. -/
theorem second_attempt_superseded : ¬ SendsCurrent rotating config holding := by
  intro h
  obtain ⟨a, hcurrent⟩ := h 1 _ (List.mem_of_getElem? (i := 9) rfl) refreshUrl
    (.refresh (.str "A") (.str "a")) rfl
  rw [Body.refresh.injEq] at hcurrent
  have htoken : Value.str "a" = Value.str "b" := hcurrent.2
  exact absurd (Value.str.inj htoken) (by decide)

end WyzeCams.Api.Replay
