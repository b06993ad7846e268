import CongestionObservatory.Proofs.Transport.Network
import Mathlib.Order.WellFounded

/-!
# `CongestionObservatory.Proofs.Transport.Progress`: a push returns

Every step of a session leaves it as it is or makes it descend (`Moves.descends`): the client goes
on with a reply, or it sends, or the server has less to do, or the client has less to read. So
a session cannot go on forever, whatever fails.

It cannot get stuck either. As long as the client has not returned, some step in which nothing
fails changes the session (`Agrees.exists_orderly`): both sides never wait for each other. So a
client returns in every infinite run that does not leave its session where it is
(`pushes_return`).
-/

set_option autoImplicit false

namespace CongestionObservatory

open Lib FrameDecoder

variable {ι α : Type}

/-- A client outside of `exchange` has something to send. -/
def ClientThread.toSend : ClientThread α → Nat
  | .running _ => 1
  | .waiting _ _ _ => 0

/-- What a server has to do. The bytes that it did not receive count twice, as it has to take them
apart then. -/
def ServerThread.work (toServer : Text) : ServerThread → Nat
  | .receiving d => 1 + 2 * d.buffer.length + 4 * toServer.length
  | .serving d => 2 + 2 * d.buffer.length + 4 * toServer.length
  | .ended _ => 0

namespace Session

/-- What a session has to do. -/
def rank (s : Session α) : Client α × Nat × Nat × Nat :=
  (s.client.program, s.client.toSend, s.server.work s.toServer, s.toClient.length)

/-- The session has less to do. -/
def Descends (s' s : Session α) : Prop :=
  Prod.Lex Dialogue.Follows (Prod.Lex (· < ·) (Prod.Lex (· < ·) (· < ·))) s'.rank s.rank

theorem wf_descends : WellFounded (Descends : Session α → Session α → Prop) :=
  InvImage.wf rank (Dialogue.wf_follows.prod_lex
    (Nat.lt_wfRel.wf.prod_lex (Nat.lt_wfRel.wf.prod_lex Nat.lt_wfRel.wf)))

variable {limits : Limits} {s s' : Session α} {calls : List RuntimeEvent}

/-- The client goes on with a reply. -/
theorem descends_reply {request : Request} {rest : Result Text → Client α}
    (hprogram : s.client.program = .call request rest) {reply : Result Text}
    (hclient : s'.client = .running (rest reply)) : Descends s' s := by
  refine Prod.Lex.left _ _ ?_
  rw [hprogram, hclient]
  exact .reply request rest reply

/-- The server has less to do. -/
theorem descends_server (hclient : s'.client = s.client)
    (hwork : s'.server.work s'.toServer < s.server.work s.toServer) : Descends s' s := by
  unfold Descends rank
  rw [hclient]
  exact .right _ (.right _ (.left _ _ hwork))

/-- The work of a server that has a decoder. -/
theorem work_bounds {server : ServerThread} {d : FrameDecoder} (h : server.decoder = some d)
    (toServer : Text) : 1 + 2 * d.buffer.length + 4 * toServer.length ≤ server.work toServer ∧
      server.work toServer ≤ 2 + 2 * d.buffer.length + 4 * toServer.length := by
  cases server with
  | receiving d' =>
      cases h
      rw [ServerThread.work]
      omega
  | serving d' =>
      cases h
      rw [ServerThread.work]
      omega
  | ended status => cases h

/-- **No step of a session goes back.** -/
theorem Moves.descends (h : Moves limits s s' calls) : s' = s ∨ Descends s' s := by
  cases h with
  | stays => exact Or.inl rfl
  | sends request rest hclient hfits =>
      right
      unfold Descends rank
      rw [hclient]
      exact .right _ (.left _ _ Nat.zero_lt_one)
  | tears request rest hclient bytes e hbytes =>
      exact Or.inr (descends_reply (by rw [hclient]; rfl) rfl)
  | reads request rest d d' hclient toClient hshrinks hd hwaits hbytes =>
      right
      unfold Descends rank
      rw [hclient]
      exact .right _ (.right _ (.right _ hshrinks))
  | gets request rest d hclient toClient buffer dropped frame hbytes hframe htype herror =>
      exact Or.inr (descends_reply (by rw [hclient]; rfl) rfl)
  | loses request rest d hclient toClient e =>
      exact Or.inr (descends_reply (by rw [hclient]; rfl) rfl)
  | hears d d' server toServer hserver hserver' hshrinks hd hwaits hbytes =>
      refine Or.inr (descends_server rfl ?_)
      show server.work toServer < s.server.work s.toServer
      rcases hshrinks with hshrinks | ⟨rfl, hserving, hreceiving⟩
      · have hlength := congrArg List.length hbytes
        rw [List.length_append, List.length_append] at hlength
        have hbefore := (work_bounds hserver s.toServer).1
        have hafter := (work_bounds hserver' toServer).2
        omega
      · have hsame : d'.buffer = d.buffer := List.append_cancel_right hbytes
        rw [hserving, hreceiving, ServerThread.work, ServerThread.work, hsame]
        omega
  | ends d hserver status farewell bytes toServer greeted log hbytes hfarewell =>
      refine Or.inr (descends_server rfl ?_)
      have hbefore := (work_bounds hserver s.toServer).1
      show 0 < s.server.work s.toServer
      omega
  | answers d hserver frame rest hframe calls reply hanswered server bytes greeted log hbytes hgoes =>
      refine Or.inr (descends_server rfl ?_)
      have hbefore := (work_bounds hserver s.toServer).1
      have hshorter := scan_shrinks hframe
      show server.work s.toServer < s.server.work s.toServer
      cases hdecoder : server.decoder with
      | none =>
          cases server with
          | ended status =>
              rw [ServerThread.work]
              omega
          | receiving d' => cases hdecoder
          | serving d' => cases hdecoder
      | some d' =>
          have hafter := (work_bounds hdecoder s.toServer).2
          have hrest := (hgoes d' hdecoder).2.1.buffer_eq
          rw [hrest] at hafter
          omega

/-! ### Some step is possible -/

/-- A step in which nothing fails. The client receives when there are bytes, or when the server
ended and there will be no more. -/
inductive Orderly (s : Session α) : SessionAction → Prop where
  | clientSends : Orderly s (.clientSends none)
  | clientReceives (n : Nat) (hn : 0 < n)
      (hbytes : s.toClient = [] → ∃ status, s.server = .ended status) :
      Orderly s (.clientReceives (.ok n))
  | serverReceives (n : Nat) (hn : 0 < n) (hbytes : s.toServer ≠ []) (world : Surroundings)
      (torn : Nat) : Orderly s (.serverReceives (.ok n) world torn)
  | serverServes (world : Surroundings) (torn : Nat)
      (hsends : ∀ happened bytes, world.sendAll happened bytes = .ok ()) :
      Orderly s (.serverServes world torn)

/-- A client that has something to send does something else then. -/
theorem clientSends_ne {request : Request} {rest : Result Text → Client α}
    (hclient : s.client = .running (.call request rest)) : s.clientSends none ≠ s := by
  intro hsame
  have hafter := congrArg Session.client hsame
  unfold clientSends at hafter
  rw [hclient] at hafter
  dsimp only at hafter
  cases hencode : startExchange s.limits request with
  | error e =>
      -- A program is not what it goes on with.
      rw [hencode] at hafter
      have hfollows : Dialogue.Follows (rest (.error e)) (.call request rest) := .reply _ _ _
      rw [ClientThread.running.inj hafter] at hfollows
      exact Dialogue.wf_follows.irrefl.irrefl _ hfollows
  | ok bytes =>
      have hnone : lookForReply s.limits request.expected { limits := s.limits } = none := rfl
      rw [hencode] at hafter
      dsimp only [await] at hafter
      rw [hnone] at hafter
      cases hafter

/-- A client that receives takes bytes off the stream. -/
theorem clientReceives_toClient {request : Request} {rest : Result Text → Client α}
    {d : FrameDecoder} (hclient : s.client = .waiting request rest d) (n : Nat) :
    (s.clientReceives (.ok n)).toClient = s.toClient.drop n := by
  unfold clientReceives
  rw [hclient]
  dsimp only
  split
  · rfl
  · unfold await
    split <;> rfl

/-- A client that waits does something else when it receives bytes or the end of the stream. -/
theorem clientReceives_ne {request : Request} {rest : Result Text → Client α} {d : FrameDecoder}
    (hclient : s.client = .waiting request rest d) : s.clientReceives (.ok 1) ≠ s := by
  intro hsame
  by_cases hbytes : s.toClient = []
  · have hafter := congrArg Session.client hsame
    unfold clientReceives at hafter
    rw [hclient] at hafter
    have hclosed : takeBytes d (Except.map (fun n => s.toClient.take n) (.ok 1))
        = .error (makeError .ioError "peer closed the connection before replying") := by
      rw [hbytes]
      rfl
    dsimp only at hafter
    rw [hclosed] at hafter
    cases hafter
  · have hafter := congrArg Session.toClient hsame
    rw [clientReceives_toClient hclient] at hafter
    have hlength := congrArg List.length hafter
    have hpos := List.length_pos_iff.mpr hbytes
    rw [List.length_drop] at hlength
    omega

variable {config : ServerConfig} {shared : ServerShared}

/-- A server that receives bytes does something else then. -/
theorem serverReceives_ne {d : FrameDecoder} (hserver : s.server = .receiving d)
    (hbytes : s.toServer ≠ []) (world : Surroundings) (torn : Nat) :
    (s.serverReceives shared (.ok 1) world torn).1 ≠ s := by
  intro hsame
  have hafter := congrArg Session.server hsame
  unfold serverReceives at hafter
  rw [hserver] at hafter
  have hdata : s.toServer.take 1 ≠ [] := by
    cases htoServer : s.toServer with
    | nil => exact absurd htoServer hbytes
    | cons byte bytes => simp
  dsimp only at hafter
  rw [if_neg hdata] at hafter
  split at hafter
  · rcases hfail : connection _ shared |>.fail world _ _ _ with ⟨ending, c⟩
    rw [hfail] at hafter
    cases hafter
  · cases hafter

/-- A server that looks at its decoder does something else then. -/
theorem serverServes_ne {d : FrameDecoder} (hserver : s.server = .serving d)
    (hd : Holds limits d d.buffer) (world : Surroundings) (torn : Nat) :
    (s.serverServes config shared world torn).1 ≠ s := by
  intro hsame
  have hafter := congrArg Session.server hsame
  unfold serverServes at hafter
  rw [hserver] at hafter
  dsimp only at hafter
  cases hscan : scan limits d.buffer with
  | error e =>
      obtain ⟨current, hnext⟩ := next_of_scan_error hd.idle (by rw [hd.limits_eq]; exact hscan)
      rw [hnext] at hafter
      dsimp only at hafter
      rcases hfail : connection _ shared |>.fail world _ _ _ with ⟨ending, c⟩
      rw [hfail] at hafter
      cases hafter
  | ok found =>
      rcases found with _ | ⟨frame, rest⟩
      · rw [next_of_scan_none hd.idle (by rw [hd.limits_eq]; exact hscan)] at hafter
        cases hafter
      · obtain ⟨d', hnext, hconsume⟩ :=
          next_of_scan_some hd.idle (by rw [hd.limits_eq]; exact hscan)
        rw [hnext] at hafter
        dsimp only at hafter
        rcases hhandle : IngestServer.handleFrame config world
          ((s.connection shared).receive frame) frame with ⟨_ | ending, c⟩
        · -- The buffer without the frame is shorter.
          rw [hhandle] at hafter
          have hsame' : d'.consume = d := ServerThread.serving.inj hafter
          rw [hconsume] at hsame'
          have hshorter := scan_shrinks hscan
          rw [← congrArg FrameDecoder.buffer hsame'] at hshorter
          exact Nat.lt_irrefl _ hshorter
        · rw [hhandle] at hafter
          cases hafter

/-- **A session is not stuck before its client returned.** -/
theorem Agrees.exists_orderly {p : Client α} {events : List RuntimeEvent}
    {replies : List (Result Text)} {served : List Served}
    (h : Agrees limits p s events replies served) (hreturned : s.returned = none)
    (config : ServerConfig) (shared : ServerShared) :
    ∃ action, Orderly s action ∧ (s.act config shared action).1 ≠ s := by
  let world : Surroundings :=
    { nowWallClock := fun _ => Timestamp.zero, sendAll := fun _ _ => .ok () }
  cases hclient : s.client with
  | running program =>
      cases program with
      | done a =>
          rw [returned, hclient] at hreturned
          cases hreturned
      | call request rest => exact ⟨.clientSends none, .clientSends, clientSends_ne hclient⟩
  | waiting request rest dc =>
      cases hserver : s.server with
      | ended status =>
          exact ⟨.clientReceives (.ok 1), .clientReceives 1 Nat.zero_lt_one fun _ => ⟨status, hserver⟩,
            clientReceives_ne hclient⟩
      | serving d =>
          exact ⟨.serverServes world 0, .serverServes world 0 fun _ _ => rfl,
            serverServes_ne hserver (h.hears d (by rw [hserver]; rfl)).1 world 0⟩
      | receiving d =>
          have hdecoder : s.server.decoder = some d := by
            rw [hserver]
            rfl
          by_cases htoServer : s.toServer = []
          · by_cases htoClient : s.toClient = []
            · -- Both would wait: the one who is to read has a whole frame in its decoder.
              exfalso
              obtain ⟨hneeds, hwhole⟩ := h.waits request rest dc hclient
              obtain ⟨-, hunread⟩ := h.listens_waiting hclient
              have halive : s.Alive := by
                unfold Alive
                rw [hdecoder]
                rfl
              rw [htoClient, List.append_nil] at hunread
              cases hunread with
              | unanswered hserved hnil hpart =>
                  have hbytes := hwhole hserved d hdecoder
                  have hunheard := (h.hears d hdecoder).2.2
                  have hposition := h.position
                  rw [hclient] at hposition
                  rw [hclient, ClientThread.requests, hserved, ← Dialogue.length_asked hposition,
                    List.getElem?_concat_length, hbytes] at hunheard
                  have hsize := Begins.size_of_wire hunheard
                  rw [htoServer, List.append_nil] at hbytes
                  exact scan_wire_ne_none limits hsize (hbytes ▸ h.idles d hserver)
              | answered before served' hserved hnumber hwire hpart =>
                  have hbytes := hwire halive
                  rw [hbytes] at hpart hneeds
                  exact scan_wire_ne_none s.limits hpart.size_of_wire hneeds
            · exact ⟨.clientReceives (.ok 1),
                .clientReceives 1 Nat.zero_lt_one fun hnil => absurd hnil htoClient,
                clientReceives_ne hclient⟩
          · exact ⟨.serverReceives (.ok 1) world 0,
              .serverReceives 1 Nat.zero_lt_one htoServer world 0,
              serverReceives_ne hserver htoServer world 0⟩

end Session

namespace Network

variable [DecidableEq ι] {config : ServerConfig} {runtime : Runtime}
  {stats : ServerStats} {limits : ι → Limits} {programs : ι → Client α}

/-- A session descends or stays in each of its turns, in every run. -/
theorem descends_run (hquits : ∀ i, (programs i).Quits Final)
    (turns : List (Turn ι SessionAction ServerShared)) (i : ι) (action : SessionAction) :
    let network := run (step config) (start runtime stats limits programs) turns
    ((network.own i).act config network.shared action).1 = network.own i ∨
      Session.Descends ((network.own i).act config network.shared action).1 (network.own i) := by
  intro network
  obtain ⟨hconfig, hagrees⟩ := agrees_run config runtime stats limits programs hquits turns
  obtain ⟨replies, served, h⟩ := hagrees i
  exact (h.moves config (congrArg RuntimeConfig.limits hconfig) action).descends

/-- A client returns in every infinite run that does not leave its session where it is. -/
theorem eventually_returned (hquits : ∀ i, (programs i).Quits Final)
    (turns : Nat → Turn ι SessionAction ServerShared) (i : ι)
    (hfair : ∀ n, ((Parties.upTo (Session.act config) interfere
        (start runtime stats limits programs) turns n).own i).returned = none →
      ∃ k, n ≤ k ∧ (Parties.upTo (Session.act config) interfere
          (start runtime stats limits programs) turns (k + 1)).own i
        ≠ (Parties.upTo (Session.act config) interfere
          (start runtime stats limits programs) turns k).own i) :
    ∃ n result, ((Parties.upTo (Session.act config) interfere
      (start runtime stats limits programs) turns n).own i).returned = some result := by
  obtain ⟨n, hn⟩ := Parties.own_eventually (Session.act config) interfere
    Session.wf_descends (P := fun s => s.returned.isSome) (start runtime stats limits programs) i
    (fun turns action => descends_run hquits turns i action) turns
    fun n hn => hfair n (Option.not_isSome_iff_eq_none.mp hn)
  obtain ⟨result, hresult⟩ := Option.isSome_iff_exists.mp hn
  exact ⟨n, result, hresult⟩

end Network

/-! ### Pushes -/

section

variable [DecidableEq ι] (config : ServerConfig) (runtime : Runtime)
  (stats : ServerStats) (clients : ι → IngestClientConfig) (records : ι → List EvidenceRecord)

/-- **A push is never stuck.** Whatever failed before and however the sessions interleaved, as long
as a client has not returned, there is a step of its session in which nothing fails and which
changes the session. The client and the server never wait for each other. -/
theorem pushes_never_stuck (turns : List (Turn ι SessionAction ServerShared)) (i : ι)
    (hreturned : ((run (Network.step config) (Network.pushing runtime stats clients records)
      turns).own i).returned = none) :
    let network := run (Network.step config)
      (Network.pushing runtime stats clients records) turns
    ∃ action, (network.own i).Orderly action ∧
      ((network.own i).act config network.shared action).1 ≠ network.own i := by
  obtain ⟨replies, served, h⟩ := (Network.agrees_run config runtime stats
    (fun i => (clients i).limits) (fun i => pushRecords (clients i) (records i))
    (fun i => quits_pushRecords (clients i) (records i)) turns).2 i
  exact h.exists_orderly hreturned config _

end

/-- A client that was greeted and sent a heartbeat waits for the acknowledgement. -/
def heartbeatSent : Network Unit (Result IngestClientResult) :=
  run (Network.step {})
    (Network.pushing (Runtime.initial {}) {} (fun _ : Unit => {})
      fun _ => [EvidenceRecord.heartbeat 1])
    (exchangeTurns ++ [.party () (.clientSends none)])

theorem heartbeatSent_waiting : (heartbeatSent.own ()).returned.isNone = true := by decide +kernel

theorem heartbeatSent_not_stuck : ∃ action, (heartbeatSent.own ()).Orderly action ∧
    ((heartbeatSent.own ()).act {} heartbeatSent.shared action).1 ≠ heartbeatSent.own () := by
  have hstep := pushes_never_stuck {} (Runtime.initial {}) {} (fun _ : Unit => {})
    (fun _ => [EvidenceRecord.heartbeat 1]) (exchangeTurns ++ [.party () (.clientSends none)]) ()
  exact hstep (Option.isNone_iff_eq_none.mp heartbeatSent_waiting)

section

variable [DecidableEq ι] (config : ServerConfig) (runtime : Runtime)
  (stats : ServerStats) (clients : ι → IngestClientConfig) (records : ι → List EvidenceRecord)

/-- The sessions of clients that push, after some turns of an infinite run. -/
def pushingUpTo (turns : Nat → Turn ι SessionAction ServerShared) (n : Nat) :
    Network ι (Result IngestClientResult) :=
  Parties.upTo (Session.act config) (Network.interfere)
    (Network.pushing runtime stats clients records) turns n

/-- **A push returns**, with a result or with an error, in every infinite run that does not leave
its session where it is for good. -/
theorem pushes_return (turns : Nat → Turn ι SessionAction ServerShared) (i : ι)
    (hfair : ∀ n, ((pushingUpTo config runtime stats clients records turns n).own i).returned
        = none →
      ∃ k, n ≤ k ∧ (pushingUpTo config runtime stats clients records turns (k + 1)).own i
        ≠ (pushingUpTo config runtime stats clients records turns k).own i) :
    ∃ n result, ((pushingUpTo config runtime stats clients records turns n).own i).returned
      = some result :=
  Network.eventually_returned (fun i => quits_pushRecords (clients i) (records i)) turns i hfair

end

/-- A client that has returned sends nothing. -/
theorem Session.clientSends_returned {s : Session α} (h : s.returned.isSome = true)
    (failure : Option (Nat × Error)) : s.clientSends failure = s := by
  cases hclient : s.client with
  | running program =>
      cases program with
      | done a =>
          unfold clientSends
          rw [hclient]
      | call request rest =>
          rw [returned, hclient] at h
          cases h
  | waiting request rest d =>
      rw [returned, hclient] at h
      cases h

/-- Three exchanges, for the greeting, a record and the goodbye, and then a client that has nothing
to send. -/
def heartbeatPushTurns (n : Nat) : Turn Unit SessionAction ServerShared :=
  (exchangeTurns ++ exchangeTurns ++ exchangeTurns).getD n (.party () (.clientSends none))

/-- A client that pushes a heartbeat to a new server. -/
def heartbeatPush (n : Nat) : Session (Result IngestClientResult) :=
  (pushingUpTo {} (Runtime.initial {}) {} (fun _ : Unit => {})
    (fun _ => [EvidenceRecord.heartbeat 1]) heartbeatPushTurns n).own ()

theorem heartbeatPush_returned (d : Nat) : (heartbeatPush (15 + d)).returned.isSome = true := by
  induction d with
  | zero => decide +kernel
  | succ d ih =>
      have hturn : heartbeatPushTurns (15 + d) = .party () (.clientSends none) := by
        rw [heartbeatPushTurns, List.getD_eq_default]
        exact Nat.le_add_right 15 d
      have hstep : heartbeatPush (15 + d + 1) = (heartbeatPush (15 + d)).clientSends none := by
        unfold heartbeatPush pushingUpTo
        rw [Parties.upTo_succ, hturn]
        rfl
      rw [← Nat.add_assoc, hstep, Session.clientSends_returned ih]
      exact ih

theorem heartbeatPush_returns : ∃ n result, (heartbeatPush n).returned = some result := by
  refine pushes_return {} (Runtime.initial {}) {} (fun _ => {})
    (fun _ => [EvidenceRecord.heartbeat 1]) heartbeatPushTurns () fun n hn => ?_
  rcases Nat.lt_or_ge n 15 with hlt | hge
  · refine ⟨14, by omega, fun hsame => ?_⟩
    have hbefore : (heartbeatPush 14).returned.isSome = false := by decide +kernel
    have hafter := heartbeatPush_returned 0
    rw [show heartbeatPush (15 + 0) = heartbeatPush 14 from hsame, hbefore] at hafter
    cases hafter
  · obtain ⟨d, rfl⟩ := Nat.exists_eq_add_of_le hge
    have hsome := heartbeatPush_returned d
    rw [show (heartbeatPush (15 + d)).returned = none from hn] at hsome
    cases hsome

end CongestionObservatory
