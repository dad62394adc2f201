-- Each end of a connection runs as a session on its own does: the client as
-- one whose caller sends only while it is idle, the server as one driven by
-- its own completions, so the single-session results hold at each end.
import MicroTcp.Exchange.Delivery
import MicroTcp.ClientSession
import MicroTcp.ServerSession

namespace micro_tcp.exchange

open Session

section

variable {h : Message → Message → Message} {ms : List Message} {e e' : Exchange}
  {cp : ClientPhase} {sp : ServerPhase}

/-- One step of a connection moves its client session by an input a caller that sends only
while idle may give, or leaves it; and moves its server session by a completion, or leaves
it. -/
theorem Joint.step_sessions {a : Action} (hj : Joint h ms e cp sp)
    (hs : e.step h a = some (.ok e')) :
    (e'.client.session = e.client.session ∨ ∃ i, client_session.WhenIdle i e.client.session ∧
      i.Enabled e.client.session ∧ e.client.session.apply .client i = .ok e'.client.session) ∧
    (e'.server.session = e.server.session ∨ ∃ i, i.IsCompletion ∧ i.Enabled e.server.session ∧
      e.server.session.apply (.server h) i = .ok e'.server.session) := by
  cases a with
  | send =>
    obtain ⟨m, rest, hu, hsec, hresp, he⟩ := Exchange.step_send_eq_some hs
    cases he
    obtain ⟨j, rfl, -⟩ := hj.client.send length_replies hsec hresp hu
    exact ⟨.inr ⟨.send m, .inr ⟨m, rfl, hj.client.socket_open, hj.client.pending, hsec⟩, trivial,
      rfl⟩, .inl rfl⟩
  | transmit p op n =>
    cases p with
    | client =>
      obtain ⟨x, b, hxb, he⟩ := Exchange.step_transmit_eq_some hs
      cases he
      obtain ⟨-, -, -, rfl, -⟩ := End.transmit_eq_some hxb
      exact ⟨.inl rfl, .inl rfl⟩
    | server =>
      obtain ⟨x, b, hxb, he⟩ := Exchange.step_transmit_eq_some hs
      cases he
      obtain ⟨-, -, -, rfl, -⟩ := End.transmit_eq_some hxb
      exact ⟨.inl rfl, .inl rfl⟩
  | complete p op =>
    cases p with
    | client =>
      obtain ⟨r, hcomp, he⟩ := Exchange.step_complete_eq_some hs
      rcases r with f | ⟨x, w⟩
      · cases he
      · cases he
        obtain ⟨hen, happ⟩ := End.complete_eq_ok hcomp
        exact ⟨.inr ⟨.complete _ _ _ _, .inl trivial, hen, happ⟩, .inl rfl⟩
    | server =>
      obtain ⟨r, hcomp, he⟩ := Exchange.step_complete_eq_some hs
      rcases r with f | ⟨x, w⟩
      · cases he
      · cases he
        obtain ⟨hen, happ⟩ := End.complete_eq_ok hcomp
        exact ⟨.inl rfl, .inr ⟨.complete _ _ _ _, trivial, hen, happ⟩⟩

end

/-- Under every run of a connection whose messages and replies fit the length field, the
client end is a state a client session reaches when its caller sends only while it is idle,
and the server end a state a server session reaches by the completions of its operations. -/
theorem exchange_ends_are_session_runs (h : Message → Message → Message) (ms : List Message)
    (hm : ∀ m ∈ ms, m.content_buffer.length < 10 ^ 10)
    (hr : ∀ r ∈ replies h ms, r.content_buffer.length < 10 ^ 10)
    (as : List Action) (e : Exchange) (hrun : (Exchange.start ms).run h as = some (.ok e)) :
    micro_tcp.Reachable .client client_session.WhenIdle e.client.session ∧
      server_session.Reachable h e.server.session := by
  suffices ∀ as (e₀ e : Exchange) cp sp, Joint h ms e₀ cp sp →
      micro_tcp.Reachable .client client_session.WhenIdle e₀.client.session →
      server_session.Reachable h e₀.server.session → e₀.run h as = some (.ok e) →
      micro_tcp.Reachable .client client_session.WhenIdle e.client.session ∧
        server_session.Reachable h e.server.session from
    this as _ e _ _ (joint_start h ms) .start .start hrun
  intro as
  induction as with
  | nil =>
    intro e₀ e _ _ _ hc hs hrun
    cases hrun
    exact ⟨hc, hs⟩
  | cons a as ih =>
    intro e₀ e cp sp hj hc hs hrun
    obtain ⟨e₁, hs₁, hrun⟩ := Exchange.run_cons_eq_ok hrun
    obtain ⟨_, cp₁, sp₁, he, hj₁, -⟩ := hj.step hm hr hs₁
    cases he
    obtain ⟨hcs, hss⟩ := hj.step_sessions hs₁
    refine ih e₁ e cp₁ sp₁ hj₁ ?_ ?_ hrun
    · rcases hcs with heq | ⟨i, hi, hen, happ⟩
      · exact heq ▸ hc
      · exact hc.next i hi hen happ
    · rcases hss with heq | ⟨i, hi, hen, happ⟩
      · exact heq ▸ hs
      · exact Reachable.next hs i hi hen happ

theorem exchange_ends_are_session_runs_hello :
    (∀ m ∈ [Message.ofContent "hello".toList], m.content_buffer.length < 10 ^ 10) ∧
      (∀ r ∈ replies handleRequest [Message.ofContent "hello".toList],
        r.content_buffer.length < 10 ^ 10) ∧
      ∃ e, (Exchange.start [Message.ofContent "hello".toList]).run handleRequest helloEcho =
          some (.ok e) ∧
        (micro_tcp.Reachable .client client_session.WhenIdle e.client.session ∧
          server_session.Reachable handleRequest e.server.session) :=
  ⟨by decide, by decide, _, rfl,
    exchange_ends_are_session_runs handleRequest [Message.ofContent "hello".toList] (by decide)
      (by decide) helloEcho _ rfl⟩

end micro_tcp.exchange
