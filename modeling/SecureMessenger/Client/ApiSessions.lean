import SecureMessenger.Client.ApiClient

/-!
# Requests and sessions

`authenticatedRequest` takes whatever access token is there when it goes on
after a refresh.  It carries a token of the session in which it was made
whenever that session is still in place and has a token then.
-/

namespace SecureMessenger
namespace Client

open Lib ApiMemory

/-- The fetch carries a token that was accepted under the revision at which its
method was called. -/
def Fetch.Own (f : Fetch) : Prop :=
  ∃ token, f.token = some (token, f.calledUnder)

/-- The session of the request is still in place, and has a token if the request
is to be made without another refresh. -/
def GoesOn.InSession (m : ApiMemory) : GoesOn → Prop
  | .fetches calledUnder => m.sessionRevision = calledUnder ∧ m.accessToken.isSome = true
  | .retries calledUnder => m.accessToken.isSome = true → m.sessionRevision = calledUnder

/-- `authenticatedRequest` goes on after a refresh only in its session. -/
def GoesOnInSession (_ : Tid) : (e : ApiCall) → ApiMemory → e.Answer → Prop
  | .segment activity _, m, _ => ∀ step, activity = some step → step.InSession m
  | .settle _, _, _ => True

/-- The access token belongs to the revision in place, and every fetch carried a
token of its own session. -/
structure ApiInv (m : ApiMemory) : Prop where
  accepted : m.accessToken.isSome = true → m.acceptedUnder = m.sessionRevision
  own : ∀ f ∈ m.fetches, f.Own

/-- A segment that keeps the invariant, if it goes on in its session. -/
def KeepsSession : ApiCall → Prop
  | .segment activity f =>
      ∀ m : ApiMemory, ApiInv m →
        (∀ step, activity = some step → step.InSession m) → ApiInv (f m).2
  | .settle _ => True

section Segments

variable {m : ApiMemory}

theorem ApiInv.clearSession (h : ApiInv m) : ApiInv m.clearSession :=
  ⟨fun htoken => by simp [ApiMemory.clearSession] at htoken, h.own⟩

theorem ApiInv.acceptTokens (h : ApiInv m) (tokens : TokenResponse) :
    ApiInv (m.acceptTokens tokens) :=
  ⟨fun _ => rfl, h.own⟩

theorem ApiInv.refreshAccessToken (h : ApiInv m) (notify : Bool) :
    ApiInv (m.refreshAccessToken notify).2 := by
  unfold ApiMemory.refreshAccessToken
  split
  · exact h
  · exact ⟨h.accepted, h.own⟩

/-- A fetch while the session of the request is in place. -/
theorem ApiInv.fetch (h : ApiInv m) (path : String) (htoken : m.accessToken.isSome = true) :
    ApiInv (m.fetch path m.sessionRevision) := by
  refine ⟨h.accepted, fun f hf => ?_⟩
  rcases List.mem_cons.mp hf with rfl | hf
  · obtain ⟨token, htoken'⟩ := Option.isSome_iff_exists.mp htoken
    exact ⟨token, by simp [htoken', h.accepted htoken]⟩
  · exact h.own f hf

theorem ApiInv.beginRequest (h : ApiInv m) (path : String) {calledUnder : Nat}
    (hsession : m.accessToken.isSome = true → m.sessionRevision = calledUnder) :
    ApiInv (m.beginRequest path calledUnder).2 := by
  unfold ApiMemory.beginRequest
  cases htoken : m.accessToken with
  | none => exact h.refreshAccessToken true
  | some token =>
      have hsome : m.accessToken.isSome = true := by simp [htoken]
      obtain rfl := hsession hsome
      exact h.fetch path hsome

end Segments

section Programs

theorem keeps_segment {α : Type} {f : ApiMemory → α × ApiMemory}
    (hf : ∀ m, ApiInv m → ApiInv (f m).2) :
    Prog.Calls KeepsSession (segment none f : ApiProg α) :=
  calls_segment fun m hm _ => hf m hm

theorem keeps_awaits (g : ApiPromise) : Prog.Calls KeepsSession (awaits g : ApiProg g.Reply) :=
  calls_awaits trivial

theorem keeps_withRefreshCookieLock {α : Type} {operation : ApiProg α}
    (h : Prog.Calls KeepsSession operation) :
    Prog.Calls KeepsSession (withRefreshCookieLock operation) := by
  refine Prog.Calls.bind (keeps_awaits ApiPromise.lock) fun _ => ?_
  refine h.attempt.bind fun outcome => ?_
  refine (keeps_segment fun m hm => ⟨hm.accepted, hm.own⟩).bind fun _ => ?_
  cases outcome with
  | ok a => trivial
  | error x => trivial

theorem keeps_runRefresh (refresh : Refresh) : Prog.Calls KeepsSession (runRefresh refresh) := by
  refine (keeps_withRefreshCookieLock (keeps_awaits _)).attempt.bind fun outcome => ?_
  have hfinally : ∀ outcome : Except ApiError Unit, Prog.Calls KeepsSession
      (segment none fun m =>
        ((), { m with
          refreshPromise := none
          settled := (refresh.number, outcome) :: m.settled }) : ApiProg Unit) :=
    fun outcome => keeps_segment fun m hm => ⟨hm.accepted, hm.own⟩
  cases outcome with
  | ok tokens =>
      refine (keeps_segment fun m hm => ?_).bind hfinally
      split_ifs with hsame
      · exact hm.acceptTokens tokens
      · exact hm
  | error x =>
      refine (keeps_segment fun m hm => ?_).bind hfinally
      split_ifs with hsame hstatus
      · exact hm
      · exact hm.clearSession
      · exact hm

theorem keeps_fetchAfterRefresh (path : String) (calledUnder : Nat) (waiting : Option Nat) :
    Prog.Calls KeepsSession (fetchAfterRefresh path calledUnder waiting) := by
  cases waiting with
  | none => trivial
  | some number =>
      refine Prog.Calls.bind (keeps_awaits _) fun _ => calls_segment fun m hm hgoes => ?_
      obtain ⟨rfl, htoken⟩ := hgoes (.fetches calledUnder) rfl
      exact hm.fetch path htoken

theorem keeps_authenticatedRequest (path : String) :
    Prog.Calls KeepsSession (authenticatedRequest path) := by
  refine Prog.Calls.bind (keeps_segment fun m hm => ?_) fun step => ?_
  · exact hm.beginRequest path fun _ => rfl
  obtain ⟨calledUnder, waiting⟩ := step
  refine (keeps_fetchAfterRefresh path calledUnder waiting).bind fun _ => ?_
  refine Prog.Calls.bind (keeps_awaits _).attempt fun answer => ?_
  cases answer with
  | ok _ => trivial
  | error x =>
      by_cases hstatus : x.status ≠ 401
      · simp only [if_pos hstatus]
        trivial
      · simp only [if_neg hstatus]
        refine (keeps_segment fun m hm => hm.refreshAccessToken true).bind fun number => ?_
        refine Prog.Calls.bind (keeps_awaits _) fun _ => ?_
        have hagain : Prog.Calls KeepsSession
            (segment (some (.retries calledUnder)) (ApiMemory.beginRequest path calledUnder) :
              ApiProg (Option Nat)) :=
          calls_segment fun m hm hgoes => hm.beginRequest path (hgoes _ rfl)
        refine hagain.bind fun waiting => ?_
        refine (keeps_fetchAfterRefresh path calledUnder waiting).bind fun _ => ?_
        refine Prog.Calls.bind (keeps_awaits _).attempt fun answer => ?_
        cases answer with
        | ok _ => trivial
        | error y =>
            by_cases hstatus : y.status ≠ 401
            · simp only [if_pos hstatus]
              trivial
            · simp only [if_neg hstatus]
              exact (keeps_segment fun m hm => hm.clearSession).bind fun _ => trivial

theorem keeps_getAccessToken (refresh : Bool) :
    Prog.Calls KeepsSession (getAccessToken refresh) := by
  refine (keeps_segment fun m hm => ?_).bind fun step => ?_
  · split_ifs with hrefresh
    · exact hm.refreshAccessToken true
    · exact hm
  · have hcheck : Prog.Calls KeepsSession
        (do
          let valid ← segment none fun (m : ApiMemory) =>
            (decide (step.1 = m.sessionRevision) && m.accessToken.isSome, m)
          if valid then return else Prog.throw sessionEnded : ApiProg Unit) := by
      refine (keeps_segment fun m hm => hm).bind fun valid => ?_
      cases valid with
      | true => trivial
      | false => trivial
    obtain ⟨revision, waiting⟩ := step
    cases waiting with
    | none => exact hcheck
    | some number => exact Prog.Calls.bind (keeps_awaits _) fun _ => hcheck

theorem keeps_exchangeCredentials (revision : Nat) :
    Prog.Calls KeepsSession (exchangeCredentials revision) := by
  refine (keeps_segment fun m hm => hm).bind fun current => ?_
  cases current with
  | false => trivial
  | true =>
      refine Prog.Calls.bind (keeps_awaits ApiPromise.loginTokens) fun tokens => ?_
      refine (keeps_segment fun m hm => ?_).bind fun accepted => ?_
      · split_ifs with hsame
        · exact hm.clearSession.acceptTokens tokens
        · exact hm
      · cases accepted with
        | true => trivial
        | false => trivial

theorem keeps_timerFired (kind : TimerKind) : Prog.Calls KeepsSession (timerFired kind) := by
  cases kind with
  | refresh =>
      refine (keeps_segment fun m hm => hm.refreshAccessToken true).bind fun number => ?_
      refine Prog.Calls.bind (keeps_awaits _).attempt fun answer => ?_
      cases answer with
      | ok _ => trivial
      | error x =>
          refine keeps_segment fun m hm => ?_
          split_ifs with hretry
          · exact ⟨hm.accepted, hm.own⟩
          · exact hm
  | retry =>
      refine (keeps_segment fun m hm => hm.refreshAccessToken true).bind fun number => ?_
      refine Prog.Calls.bind (keeps_awaits _).attempt fun answer => ?_
      cases answer with
      | ok _ => trivial
      | error x => trivial

theorem keeps_prog (t : Tid) (op : ApiOp) : Prog.Calls KeepsSession (op.prog t) := by
  cases op with
  | request path => exact keeps_authenticatedRequest path
  | getAccessToken force => exact keeps_getAccessToken force
  | login =>
      exact (keeps_segment fun m hm => hm).bind fun revision =>
        keeps_withRefreshCookieLock (keeps_exchangeCredentials revision)
  | restoreSession =>
      refine (keeps_segment fun m hm => hm.refreshAccessToken false).bind fun number => ?_
      refine Prog.Calls.bind (keeps_awaits _).attempt fun answer => ?_
      cases answer with
      | ok _ => trivial
      | error x =>
          by_cases hstatus : x.status = 401
          · simp only [if_pos hstatus]
            trivial
          · simp only [if_neg hstatus]
            trivial
  | logout =>
      exact (keeps_segment fun m hm => hm.clearSession).bind fun _ =>
        keeps_withRefreshCookieLock (keeps_awaits _)
  | refresh begun => exact keeps_runRefresh begun
  | timer number kind => exact keeps_timerFired kind

end Programs

section Runs

/-- The client right after its construction. -/
def ApiMemory.Fresh (m : ApiMemory) : Prop :=
  m = {}

theorem apiInv_start (t : Tid) (op : ApiOp) {m m' : ApiMemory} (hm : ApiInv m)
    (hs : apiSystem.start t op m m') : ApiInv m' := by
  cases op with
  | refresh begun =>
      obtain ⟨_, _, -, rfl⟩ := hs
      exact ⟨hm.accepted, hm.own⟩
  | timer number kind =>
      obtain ⟨_, _, -, rfl⟩ := hs
      exact ⟨hm.accepted, hm.own⟩
  | _ =>
      obtain rfl : m' = m := hs
      exact hm

theorem apiInv_settles {g : ApiPromise} {m m' : ApiMemory} {answer : Except ApiError g.Reply}
    (hm : ApiInv m) (hs : g.settles m answer m') : ApiInv m' := by
  cases g with
  | lock =>
      cases answer with
      | ok _ =>
          obtain ⟨-, rfl⟩ := hs
          exact ⟨hm.accepted, hm.own⟩
      | error x =>
          obtain ⟨-, rfl⟩ := hs
          exact hm
  | refreshed number =>
      obtain ⟨-, rfl⟩ := hs
      exact hm
  | _ =>
      obtain rfl : m' = m := hs
      exact hm

/-- Outside its session a request makes a fetch without a token of it. -/
theorem crosses_of_not_inSession {m : ApiMemory} (hm : ApiInv m) (path : String)
    {calledUnder : Nat} :
    (¬(GoesOn.fetches calledUnder).InSession m →
        ∃ f ∈ (m.fetch path calledUnder).fetches, ¬f.Own) ∧
      (¬(GoesOn.retries calledUnder).InSession m →
        ∃ f ∈ (m.beginRequest path calledUnder).2.fetches, ¬f.Own) := by
  have hfetch : ¬(GoesOn.fetches calledUnder).InSession m →
      ∃ f ∈ (m.fetch path calledUnder).fetches, ¬f.Own := by
    intro hout
    refine ⟨_, List.mem_cons_self, ?_⟩
    rintro ⟨token, htoken⟩
    obtain ⟨token', hsome, heq⟩ := Option.map_eq_some_iff.mp htoken
    have hsome' : m.accessToken.isSome = true := by simp [hsome]
    obtain ⟨-, hunder⟩ := Prod.mk.inj heq
    exact hout ⟨(hm.accepted hsome').symm.trans hunder, hsome'⟩
  refine ⟨hfetch, fun hout => ?_⟩
  simp only [GoesOn.InSession, Classical.not_imp] at hout
  obtain ⟨token, htoken⟩ := Option.isSome_iff_exists.mp hout.1
  unfold ApiMemory.beginRequest
  rw [htoken]
  exact hfetch fun h => hout.2 h.1

/-- Main result.  In every run in which `authenticatedRequest` goes on after a
refresh only in the session in which it was called, every fetch carries a token
of its own session. -/
theorem requests_keep_their_session
    (p : Pool ApiCall ApiCall.Answer ApiError ApiMemory)
    (hp : System.Reachable (apiSystem.restrict GoesOnInSession) ApiMemory.Fresh p) :
    ∀ f ∈ p.shared.fetches, ∃ token, f.token = some (token, f.calledUnder) := by
  have hinv := hp.invariant (P := KeepsSession) (I := ApiInv) keeps_prog ?_ ?_ ?_ ?_ ?_
  · exact hinv.1.own
  · rintro m rfl
    refine ⟨fun h => ?_, fun f hf => ?_⟩
    · cases h
    · cases hf
  · rintro t e m a m' hkeeps hm ⟨hx, hgoes⟩
    cases e with
    | segment activity f =>
        obtain ⟨-, rfl⟩ := hx
        exact hkeeps m hm hgoes
    | settle g => exact apiInv_settles hm hx
  · intro t op m m' hm hs
    exact apiInv_start t op hm hs
  · intro t m m' _ hs
    cases hs
  · intro m m' _ hs
    cases hs

/-- Tokens of two sessions. -/
def tokenA : TokenResponse := ⟨"A", 900, by decide⟩

def tokenB : TokenResponse := ⟨"B", 900, by decide⟩

theorem goesOn_none {t : Tid} {α : Type} {f : ApiMemory → α × ApiMemory} {m : ApiMemory} {a : α} :
    GoesOnInSession t (.segment none f) m a := by
  intro step h
  cases h

/-- A request without a token waits for a refresh and goes on in its session. -/
theorem reachable_refreshed :
    ∃ p, System.Reachable (apiSystem.restrict GoesOnInSession) ApiMemory.Fresh p ∧
      p.shared.fetches = [⟨"/devices", 0, some ("A", 0)⟩] := by
  have h : System.Reachable (apiSystem.restrict GoesOnInSession) ApiMemory.Fresh
    (System.idle {}) := .idle rfl
  have h := h.starts 0 (.request "/devices") rfl rfl
  have h := h.acts 0 rfl _ ⟨⟨rfl, rfl⟩, goesOn_none⟩
  have h := h.starts 1 (.refresh ⟨0, 0, true⟩) rfl ⟨[], [], rfl, rfl⟩
  have h := h.acts 1 rfl (.ok ()) ⟨⟨rfl, rfl⟩, trivial⟩
  have h := h.acts 1 rfl (.ok tokenA) ⟨rfl, trivial⟩
  have h := h.acts 1 rfl _ ⟨⟨rfl, rfl⟩, goesOn_none⟩
  have h := h.acts 1 rfl _ ⟨⟨rfl, rfl⟩, goesOn_none⟩
  have h := h.acts 1 rfl _ ⟨⟨rfl, rfl⟩, goesOn_none⟩
  have h := h.acts 0 rfl (.ok ()) ⟨⟨List.mem_cons_self, rfl⟩, trivial⟩
  have h := h.acts 0 rfl _ ⟨⟨rfl, rfl⟩, fun step hstep => ?_⟩
  · exact ⟨_, h, rfl⟩
  · cases hstep
    exact ⟨rfl, rfl⟩

theorem requests_keep_their_session_refreshed :
    ∃ p, System.Reachable (apiSystem.restrict GoesOnInSession) ApiMemory.Fresh p ∧
      p.shared.fetches = [⟨"/devices", 0, some ("A", 0)⟩] ∧
      ∀ f ∈ p.shared.fetches, ∃ token, f.token = some (token, f.calledUnder) := by
  obtain ⟨p, hp, hfetches⟩ := reachable_refreshed
  exact ⟨p, hp, hfetches, requests_keep_their_session p hp⟩

/-- A request made in the first session is answered with 401 after the user has
logged out and in again: it refreshes the new session and carries its token. -/
theorem request_crosses_sessions :
    ∃ p, System.Reachable apiSystem ApiMemory.Fresh p ∧
      ∃ f ∈ p.shared.fetches, f.path = "/devices" ∧ f.calledUnder = 1 ∧
        f.token = some ("B", 3) := by
  have h : System.Reachable apiSystem ApiMemory.Fresh (System.idle {}) := .idle rfl
  -- login to the first session
  have h := h.starts 0 .login rfl rfl
  have h := h.acts 0 rfl _ ⟨rfl, rfl⟩
  have h := h.acts 0 rfl (.ok ()) ⟨rfl, rfl⟩
  have h := h.acts 0 rfl _ ⟨rfl, rfl⟩
  have h := h.acts 0 rfl (.ok tokenA) rfl
  have h := h.acts 0 rfl _ ⟨rfl, rfl⟩
  have h := h.acts 0 rfl _ ⟨rfl, rfl⟩
  -- the request leaves with the first token
  have h := h.starts 1 (.request "/devices") rfl rfl
  have h := h.acts 1 rfl _ ⟨rfl, rfl⟩
  -- logout, and login to the second session
  have h := h.starts 2 .logout rfl rfl
  have h := h.acts 2 rfl _ ⟨rfl, rfl⟩
  have h := h.acts 2 rfl (.ok ()) ⟨rfl, rfl⟩
  have h := h.acts 2 rfl (.ok ()) rfl
  have h := h.acts 2 rfl _ ⟨rfl, rfl⟩
  have h := h.starts 3 .login rfl rfl
  have h := h.acts 3 rfl _ ⟨rfl, rfl⟩
  have h := h.acts 3 rfl (.ok ()) ⟨rfl, rfl⟩
  have h := h.acts 3 rfl _ ⟨rfl, rfl⟩
  have h := h.acts 3 rfl (.ok tokenB) rfl
  have h := h.acts 3 rfl _ ⟨rfl, rfl⟩
  have h := h.acts 3 rfl _ ⟨rfl, rfl⟩
  -- the late answer, the refresh of the second session and the second fetch
  have h := h.acts 1 rfl (.error sessionEnded) rfl
  have h := h.acts 1 rfl _ ⟨rfl, rfl⟩
  have h := h.starts 4 (.refresh ⟨0, 3, true⟩) rfl ⟨[], [], rfl, rfl⟩
  have h := h.acts 4 rfl (.ok ()) ⟨rfl, rfl⟩
  have h := h.acts 4 rfl (.ok tokenB) rfl
  have h := h.acts 4 rfl _ ⟨rfl, rfl⟩
  have h := h.acts 4 rfl _ ⟨rfl, rfl⟩
  have h := h.acts 4 rfl _ ⟨rfl, rfl⟩
  have h := h.acts 1 rfl (.ok ()) ⟨List.mem_cons_self, rfl⟩
  have h := h.acts 1 rfl _ ⟨rfl, rfl⟩
  exact ⟨_, h, _, List.mem_cons_self, rfl, rfl, rfl⟩

end Runs

end Client
end SecureMessenger
