import SecureMessenger.Server.Alone

/-!
# Guarantees of sessions

Refresh tokens are exchanged at most once, a token that has been rotated out
takes its session with it, and a revocation is final, whatever logins,
refreshes, logouts and device revocations run concurrently.
-/

namespace SecureMessenger
namespace Server

open Lib

section Guarantees

variable {sec : Security} {p : Pool Sql Sql.Answer PyError World}

theorem Inv.refreshed {w : World} (hi : Inv sec w) {t : Tid} {token : String}
    {tokens : IssuedTokens} (hop : w.op t = some (.refresh token))
    (hout : w.outcome t = some (.ok (.tokens tokens))) :
    ∃ c ∈ w.history, c.tid = t ∧ Rotated sec token tokens c := by
  obtain ⟨op, hop', hresult⟩ := hi.outcomes t _ hout
  rw [hop, Option.some.injEq] at hop'
  subst hop'
  obtain ⟨c, hc, hr⟩ := hresult.1 tokens rfl
  obtain ⟨hc, htid⟩ := List.mem_filter.mp hc
  exact ⟨c, hc, of_decide_eq_true htid, hr⟩

/-- Two exchanges of one token are one exchange. -/
theorem rotated_once (hd : sec.Distinct) {w : World} (hi : Inv sec w) {token : String}
    {c c' : Commit} (hc : c ∈ w.history) (hc' : c' ∈ w.history) {tokens tokens' : IssuedTokens}
    (h : Rotated sec token tokens c) (h' : Rotated sec token tokens' c') : c.tid = c'.tid := by
  -- after the first exchange the token is consumed, so it is never current again
  have later : ∀ {a b : Commit}, a ∈ w.history → Grows b.after a.before →
      (∃ tokens, Rotated sec token tokens a) → (∃ tokens, Rotated sec token tokens b) → False := by
    rintro a b ha hg ⟨_, hra⟩ ⟨_, hrb⟩
    obtain ⟨s, hs, -, hcur⟩ := hra.current
    obtain ⟨x, hx, hhash, -⟩ := hg.consumed hrb.consumed
    obtain ⟨-, -, -, -, -, hrot, -⟩ := hi.commits a ha
    exact hrot hd x hx s hs (hhash.trans hcur.symm)
  have hpair : w.history.Pairwise fun a b => (∃ tokens, Rotated sec token tokens a) →
      (∃ tokens, Rotated sec token tokens b) → a.tid = b.tid :=
    hi.order.imp_of_mem fun ha _ hg hra hrb => (later ha hg hra hrb).elim
  have hflip : w.history.Pairwise (flip fun a b => (∃ tokens, Rotated sec token tokens a) →
      (∃ tokens, Rotated sec token tokens b) → a.tid = b.tid) :=
    hi.order.imp_of_mem fun ha _ hg hrb hra => (later ha hg hra hrb).elim
  exact hpair.forall_of_forall_of_flip (fun _ _ _ _ => rfl) hflip hc hc' ⟨_, h⟩ ⟨_, h'⟩

/-- **Main result.**  If different tokens have different hashes: one token is
exchanged by at most one refresh; a refresh or a logout with a token already
rotated out of a session leaves the session revoked (unless the database has
failed it); and once a session or its device is revoked, no refresh that
commits later returns tokens for it and no later request is authenticated by
it. -/
theorem rotation_and_revocation_are_final (hd : sec.Distinct)
    (hp : System.Reachable (serverSystem sec) (World.Initial sec) p) :
    (∀ t t' token tokens tokens', p.shared.op t = some (.refresh token) →
      p.shared.op t' = some (.refresh token) →
      p.shared.outcome t = some (.ok (.tokens tokens)) →
      p.shared.outcome t' = some (.ok (.tokens tokens')) → t = t') ∧
    (∀ t token o id, p.shared.op t = some (.refresh token) ∨ p.shared.op t = some (.logout token) →
      p.shared.outcome t = some o → o ≠ .error .database →
      Consumed (p.shared.began t) (sec.hash_refresh_token token) id →
      SessionRevoked p.shared.db id) ∧
    ∀ p' id, System.Reaches (serverSystem sec) p p' → Revoked p.shared.db id →
      (∀ t token tokens, p'.shared.op t = some (.refresh token) →
        p'.shared.outcome t = some (.ok (.tokens tokens)) →
        (∀ c ∈ p.shared.history, c.tid ≠ t) → tokens.session_id ≠ id) ∧
      ∀ t claims principal, p.shared.op t = none → p'.shared.op t = some (.authenticate claims) →
        p'.shared.outcome t = some (.ok (.principal principal)) → claims.session_id ≠ id := by
  have hi := reachable_inv hp
  refine ⟨?_, ?_, fun p' id hreach hrev => ⟨?_, ?_⟩⟩
  · intro t t' token tokens tokens' hop hop' hout hout'
    obtain ⟨c, hc, rfl, hr⟩ := hi.refreshed hop hout
    obtain ⟨c', hc', rfl, hr'⟩ := hi.refreshed hop' hout'
    exact rotated_once hd hi hc hc' hr hr'
  · intro t token o id hop hout hne hcons
    obtain ⟨op, hop', hresult⟩ := hi.outcomes t o hout
    rcases hop with hop | hop
    · rw [hop, Option.some.injEq] at hop'
      subst hop'
      exact hresult.2 hd hne id hcons
    · rw [hop, Option.some.injEq] at hop'
      subst hop'
      exact hresult hd hne id hcons
  · rintro t token tokens hop hout hnew rfl
    have hi' := reachable_inv (hp.trans hreach)
    obtain ⟨c, hc, htid, hr⟩ := hi'.refreshed hop hout
    obtain ⟨new, hhist, hgrows⟩ := (reaches_grows hp hreach).history
    rw [hhist] at hc
    rcases List.mem_append.mp hc with hc | hc
    · exact hr.active ((hgrows c hc).revoked hrev)
    · exact hnew c hc htid
  · rintro t claims principal hnone hop hout rfl
    have hi' := reachable_inv (hp.trans hreach)
    obtain ⟨op, hop', hresult⟩ := hi'.outcomes t _ hout
    rw [hop, Option.some.injEq] at hop'
    subst hop'
    obtain ⟨db₀, hg, hactive⟩ := hresult
    exact hactive (((reaches_grows hp hreach).starts t _ hnone hop).trans hg |>.revoked hrev)

/-- A logout with the rotated token takes the session of Alice with it. -/
theorem rotation_and_revocation_are_final_logout :
    ∃ p, System.Reachable (serverSystem Example.plainSecurity)
        (World.Initial Example.plainSecurity) p ∧
      p.shared.op 0 = some (.logout "token-1") ∧
      SessionRevoked p.shared.db "session-a" := by
  have hcurrent : Example.smallWorld.db.sessionByHash
      (Example.plainSecurity.hash_refresh_token "token-1") = none := by decide
  have hold : Example.smallWorld.db.sessionByConsumed
      (Example.plainSecurity.hash_refresh_token "token-1") =
        some ⟨"session-a", "phone-a", "token-2", true, 0, 1000, none⟩ := by decide
  obtain ⟨p, hreach, hop, hbegan, hout⟩ :=
    logout_runs (t := 0) Example.smallWorld_initial hcurrent hold
  have hp : System.Reachable (serverSystem Example.plainSecurity)
      (World.Initial Example.plainSecurity) p := ⟨_, Example.smallWorld_initial, hreach⟩
  refine ⟨p, hp, hop, (rotation_and_revocation_are_final Example.plainSecurity_distinct hp).2.1
    0 "token-1" _ "session-a" (Or.inr hop) hout (by simp) ?_⟩
  rw [hbegan]
  exact ⟨⟨"token-1", "session-a", 0⟩, by decide, rfl, rfl⟩

end Guarantees

end Server
end SecureMessenger
