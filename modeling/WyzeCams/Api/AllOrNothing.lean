import WyzeCams.Api.Replay

/-! Whether a call of `login` or `refreshToken` resolves with the new pair in memory and in the
token file, or rejects and leaves the pair in memory as it was. -/
namespace WyzeCams.Api.Replay
open Async

def answers (tr : List (Item sig)) : List (String × PostResult) := tr.filterMap fun
  | .answer (.post url _) result => some (url, result)
  | _ => none

/-- The last answer brought the pair `q`. -/
def NewlyIssued (tr : List (Item sig)) (q : Tokens) : Prop :=
  ∃ url result tokens, (answers tr).getLast? = some (url, result) ∧
    issued url result = some tokens ∧ q = pairOf tokens

/-- The call resolves with the newly issued pair in memory and in the token file, or it rejects
and the pair in memory is the one that it began with. -/
def AllOrNothing (s : State) (r : Outcome sig Unit) : Prop :=
  (r.out = some (.ok ()) ∧ NewlyIssued r.trace r.state.tokens ∧
    r.state.tokenFile = some (persisted r.state.tokens)) ∨
  ∃ e, r.out = some (.error e) ∧ r.state.tokens = s.tokens

/-- The tokens of the last own POST of the call are stored, or else the answers that it took leave
the pair as it was. -/
def Harmless (x : Exchange) (plan : Option (Bool × Taken)) : Prop :=
  ∃ stored c, plan = some (stored, c) ∧ (stored = true ∨ x.pair c.posts = x.tokens)

variable {x : Exchange} {stops : Prop} {bg : Role (replayMonitor x)}

/-- The answers that the trace shows are those of the server, in its order. -/
theorem wp_answers {α : Type} {p : Method α} {Q : Post (replayMonitor x) α} {s : State} {g : Ledger}
    {m : Progress} (hl : Linked m g) (h : wp (replayMonitor x) bg p (replayRole x stops) Q s g) :
    ∃ n, answers (exec x.env p s m).trace =
        (List.range' g.taken.posts n).map (fun k => (x.urlOf k, x.post k)) ∧
      ((replayMonitor x).after g (exec x.env p s m).trace).taken.posts = g.taken.posts + n := by
  induction p generalizing s g m with
  | ret a => exact ⟨0, rfl, rfl⟩
  | raise e => exact ⟨0, rfl, rfl⟩
  | read k ih => exact ih s hl h
  | write t k ih => exact ih hl h.2
  | mark y k ih => exact ih (g := g.note (.mark y)) hl h.2
  | await op k ih =>
    obtain ⟨hall, -, hinv, hk⟩ := h
    have hserver : x.env.Keeps (replayMonitor x) (replayRole x stops) Linked := keeps_server x
    have hrest := hk _ _ _ (hserver.inv m g op s hl hinv) (hserver.rely m g op s hl hinv)
      (hserver.admits m g op s hl hinv)
    obtain ⟨n, hanswers, hposts⟩ := ih _ (hserver.link m g op s hl) hrest.2
    cases op with
    | post url body =>
      have hurl : url = x.urlOf g.taken.posts := hall.1
      have hpost : x.post m.taken.posts = x.post g.taken.posts := by rw [hl]
      refine ⟨n + 1, ?_, ?_⟩
      · rw [List.range'_succ, List.map_cons, ← hurl, ← hpost]
        exact congrArg (List.cons (url, x.post m.taken.posts)) hanswers
      · refine hposts.trans ?_
        exact Nat.succ_add_eq_add_succ g.taken.posts n
    | _ => exact ⟨n, hanswers, hposts⟩
  | detach op p k _ ih =>
    have htaken := taken_ask g op
    obtain ⟨n, hanswers, hposts⟩ := ih (hl.trans htaken.symm) h.2.2.2
    rw [← htaken]
    exact ⟨n, hanswers, hposts⟩
  | stuck => exact ⟨0, rfl, rfl⟩

/-- A call that stands at its beginning. -/
theorem standing_start {s : State} (hs : s.tokens = x.tokens) :
    (At (Standing x 0 0) : Assn (replayMonitor x)) s Ledger.start :=
  ⟨rfl, hs, rfl⟩

theorem newlyIssued_of_saved {tr : List (Item sig)} {q : Tokens} {f : Option Value} {c : Taken}
    (h : Saved x q f c)
    (hanswers : answers tr = (List.range' 0 c.posts).map fun k => (x.urlOf k, x.post k)) :
    NewlyIssued tr q := by
  obtain ⟨k, tokens, hposts, hissued, hq, -⟩ := h
  refine ⟨x.urlOf k, x.post k, tokens, ?_, hissued, hq⟩
  rw [hanswers, hposts, List.range'_concat, List.map_append, List.map_singleton,
    List.getLast?_concat, Nat.one_mul, Nat.zero_add]

/-- A call that ends as its plan has it is all or nothing exactly when its plan is harmless. -/
theorem allOrNothing_iff_harmless {p : Method Unit} {plan : Option (Bool × Taken)}
    (h : Triple (replayRole x (plan = none)) (replayRole x (plan = none)) (At (Standing x 0 0)) p
      fun r => At (Settled x plan r)) {s : State} (hs : s.tokens = x.tokens) :
    AllOrNothing s (exec x.env p s Progress.start) ↔ Harmless x plan := by
  have hwp := h.holds s Ledger.start (standing_start hs)
  have hlinked : Linked Progress.start Ledger.start := rfl
  obtain ⟨-, hstops, hended⟩ := wp_exec (keeps_server x) hlinked hwp
  obtain ⟨n, hanswers, hposts⟩ := wp_answers hlinked hwp
  have hn : n = ((replayMonitor x).after Ledger.start (exec x.env p s .start).trace).taken.posts :=
    (hposts.trans (Nat.zero_add n)).symm
  rw [hn] at hanswers
  generalize exec x.env p s Progress.start = r at hstops hended hanswers
  cases hout : r.out with
  | none =>
    have hplan : plan = none := hstops hout
    constructor
    · rintro (⟨hok, -⟩ | ⟨e, he, -⟩)
      · rw [hout] at hok
        cases hok
      · rw [hout] at he
        cases he
    · rintro ⟨stored, c, hc, -⟩
      rw [hplan] at hc
      cases hc
  | some result =>
    obtain ⟨-, hpair, hsaved, htaken⟩ := hended result hout
    cases result with
    | ok u =>
      have hfile := hsaved rfl
      refine iff_of_true (.inl ⟨hout, newlyIssued_of_saved hfile hanswers, ?_⟩)
        ⟨true, _, htaken, .inl rfl⟩
      obtain ⟨k, tokens, -, -, -, hf⟩ := hfile
      exact hf
    | error e =>
      constructor
      · rintro (⟨hok, -⟩ | ⟨e', -, htokens⟩)
        · rw [hout] at hok
          cases hok
        · exact ⟨false, _, htaken, .inr (hpair.symm.trans (htokens.trans hs))⟩
      · rintro ⟨stored, c, hc, hharmless⟩
        obtain ⟨hstored, hc⟩ := Prod.mk.inj (Option.some.inj (htaken.symm.trans hc))
        refine .inr ⟨e, hout, ?_⟩
        rcases hharmless with htrue | hkept
        · rw [← hstored] at htrue
          cases htrue
        · rw [hpair, hc, hkept, hs]

def Server.exchange (v : Server) (url : String) (s : State) : Exchange := ⟨v, url, s.tokens⟩

theorem login_allOrNothing_iff (v : Server) (cfg : Config) (s : State) (fuel : Nat) :
    AllOrNothing s (exec v.env (login cfg fuel) s Progress.start) ↔
      Harmless (v.exchange loginUrl s) ((v.exchange loginUrl s).login cfg fuel ⟨0, 0⟩) :=
  allOrNothing_iff_harmless (x := v.exchange loginUrl s) (triple_login_replay rfl fuel id) rfl

theorem refreshToken_allOrNothing_iff (v : Server) (cfg : Config) (s : State) (fuel : Nat) :
    AllOrNothing s (exec v.env (refreshToken cfg fuel) s Progress.start) ↔
      Harmless (v.exchange refreshUrl s) ((v.exchange refreshUrl s).refresh cfg fuel ⟨0, 0⟩) := by
  have hfresh : ¬ (v.exchange refreshUrl s).Fresh 0 := by
    rintro ⟨k, hk, -⟩
    cases hk
  refine allOrNothing_iff_harmless (x := v.exchange refreshUrl s) ?_ rfl
  refine Triple.weaken (fun _ _ h => h) (fun r t g h => ?_)
    (replays_refreshToken fuel 0 0 rfl hfresh id)
  exact at_mono (fun q f c hA => hA.toSettled) h

/-- For every server, every outcome of the writes and every state: `login` is all or nothing
exactly when it comes to an end and either the tokens of its own POST are stored or the answers
that it took leave the pair as it was; and so is `refreshToken`. -/
theorem all_or_nothing_iff (v : Server) (cfg : Config) (s : State) :
    ((∃ fuel, AllOrNothing s (exec v.env (login cfg fuel) s Progress.start)) ↔
      ∃ fuel, Harmless (v.exchange loginUrl s) ((v.exchange loginUrl s).login cfg fuel ⟨0, 0⟩)) ∧
    ((∃ fuel, AllOrNothing s (exec v.env (refreshToken cfg fuel) s Progress.start)) ↔
      ∃ fuel, Harmless (v.exchange refreshUrl s)
        ((v.exchange refreshUrl s).refresh cfg fuel ⟨0, 0⟩)) :=
  ⟨exists_congr fun fuel => login_allOrNothing_iff v cfg s fuel,
    exists_congr fun fuel => refreshToken_allOrNothing_iff v cfg s fuel⟩

def diskFull : Server :=
  ⟨fun _ => withBody [("access_token", .str "A"), ("refresh_token", .str "R")],
    fun _ => some ⟨"Error", [.text "ENOSPC"]⟩, fun _ => 5000⟩

/-- Such a login rejects, with the new pair in memory. -/
theorem login_rejects_with_new_pair :
    ¬ ∃ fuel, AllOrNothing (init 5000 none)
      (exec diskFull.env (login config fuel) (init 5000 none) Progress.start) := by
  rintro ⟨fuel, h⟩
  obtain ⟨stored, c, hplan, hharmless⟩ := (login_allOrNothing_iff _ _ _ fuel).mp h
  have htaken : (diskFull.exchange loginUrl (init 5000 none)).login config fuel ⟨0, 0⟩ =
      some (false, ⟨1, 2⟩) := rfl
  obtain ⟨rfl, rfl⟩ := Prod.mk.inj (Option.some.inj (htaken.symm.trans hplan))
  rcases hharmless with hstored | hpair
  · cases hstored
  · have hnew : (diskFull.exchange loginUrl (init 5000 none)).pair 1 = (.str "A", .str "R") := rfl
    have htoken : Value.str "A" = Value.str "" := congrArg Prod.fst (hnew.symm.trans hpair)
    exact absurd (Value.str.inj htoken) (by decide)

end WyzeCams.Api.Replay
