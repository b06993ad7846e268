import CongestionObservatory.Proofs.Transport.Client
import CongestionObservatory.Proofs.Transport.Moves

/-!
# `CongestionObservatory.Proofs.Transport.Network`: clients and server agree

`Agrees` is the invariant of one session. It relates the replies that the client got so far with the
requests that the server answered so far (`Served`): the client got the reply of the server to its
own request, at every exchange and in order. What is under way is at most one request and the reply
to it, and the goodbye of a server that stops (`Hears`, `Listens`).

`agrees_run` proves it for every session of every run, whatever the other sessions and threads do
and whichever calls on the sockets fail. `pushes_agree` is what this means for clients that push
records, and `pushes_serialize` says that all of them together are one run of the runtime.
-/

set_option autoImplicit false

namespace CongestionObservatory

open Lib FrameDecoder

variable {ι α : Type}

/-- A request that the server answered: the calls of the runtime it made, and its reply. -/
structure Served where
  request : Request
  calls : List RuntimeEvent
  reply : Frame

namespace ClientThread

/-- What the client still does. -/
def program : ClientThread α → Client α
  | .running program => program
  | .waiting request rest _ => .call request rest

/-- The requests of a client after some replies. -/
def requests (p : Client α) (replies : List (Result Text)) : ClientThread α → List Request
  | .running _ => p.asked replies
  | .waiting request _ _ => p.asked replies ++ [request]

end ClientThread

namespace Session

/-! ### The invariant of a session -/

/-- The server thread is not done. -/
def Alive (s : Session α) : Prop := s.server.decoder.isSome

/-- What is under way to the server: nothing, or a part of the request it did not answer yet. -/
def Unheard : Option Request → Text → Prop
  | none, bytes => bytes = []
  | some request, bytes => Begins request.frame [] bytes

/-- What is under way to a client that waits for its reply of some number. -/
inductive Unread (alive : Prop) (served : List Served) (number : Nat) (bytes : Text) : Prop where
  /-- The server did not answer yet. It ended where there is something to read. -/
  | unanswered (hserved : served.length = number) (halive : alive → bytes = [])
      (hbytes : bytes <:+: byeFrame.wire ∨ ∃ frame : Frame, frame.type = .error ∧ Begins frame [] bytes)
  /-- The reply, and perhaps a goodbye behind it. -/
  | answered (before : List Served) (served' : Served) (hserved : served = before ++ [served'])
      (hnumber : before.length = number) (halive : alive → bytes = served'.reply.wire)
      (hbytes : Begins served'.reply byeFrame.wire bytes)

/-- What is under way to a client: a client that is done does not read it. -/
def Listens (s : Session α) (served : List Served) (number : Nat) : Prop :=
  match s.client with
  | .running (.done _) => True
  | .running (.call _ _) =>
    served.length = number ∧ s.toClient <:+: byeFrame.wire ∧ (s.Alive → s.toClient = [])
  | .waiting _ _ d =>
    Holds s.limits d d.buffer ∧ Unread s.Alive served number (d.buffer ++ s.toClient)

/-- The reply that a client got is the one of the server, unless the client said goodbye. -/
def Got (request : Request) (payload : Text) (served : Option Served) : Prop :=
  request.expected = .bye ∨
    ∃ served', served = some served' ∧ served'.reply.type = request.expected ∧
      served'.reply.payload = payload

/-- The client of the program got the replies, the server answered the requests, and what is under
way is in between. The limits are those of the server. -/
structure Agrees (limits : Limits) (p : Client α) (s : Session α) (events : List RuntimeEvent)
    (replies : List (Result Text)) (served : List Served) : Prop where
  position : p.after replies = s.client.program
  requested : served.map Served.request <+: s.client.requests p replies
  answered : ∀ x ∈ served, Answered limits x.request.type x.request.payload x.calls x.reply
  accepted : ∀ x ∈ served.dropLast, x.reply.type ≠ .error
  called : events = served.flatMap Served.calls
  got : ∀ (j : Nat) (payload : Text), replies[j]? = some (Except.ok payload) →
    ∃ request, (p.asked replies)[j]? = some request ∧ Got request payload served[j]?
  hears : ∀ d, s.server.decoder = some d → Holds limits d d.buffer ∧
    (∀ x ∈ served, x.reply.type ≠ .error) ∧
    Unheard (s.client.requests p replies)[served.length]? (d.buffer ++ s.toServer)
  listens : s.Listens served replies.length
  /-- A client waits for more than it has, and behind a request that it sent as a whole. -/
  waits : ∀ request rest d, s.client = .waiting request rest d →
    scan s.limits d.buffer = .ok none ∧ (served.length = replies.length →
      ∀ d', s.server.decoder = some d' → d'.buffer ++ s.toServer = request.frame.wire)
  /-- A server that receives needs more than it has. -/
  idles : ∀ d, s.server = .receiving d → scan limits d.buffer = .ok none

/-- The invariant: it holds for some replies and requests. -/
def InAgreement (limits : Limits) (p : Client α) (s : Session α) (events : List RuntimeEvent) :
    Prop :=
  ∃ replies served, Agrees limits p s events replies served

/-- Nothing happened yet. -/
theorem inAgreement_connect (serverLimits limits : Limits) (p : Client α) :
    InAgreement serverLimits p (Network.connect serverLimits limits p) [] := by
  refine ⟨[], [], rfl, List.nil_prefix, ?_, ?_, rfl, ?_, ?_, ?_, ?_, ?_⟩
  · exact fun x hx => absurd hx List.not_mem_nil
  · exact fun x hx => absurd hx List.not_mem_nil
  · intro j payload h
    cases h
  · intro d hd
    cases hd
    exact ⟨⟨rfl, rfl, rfl⟩, fun x hx => absurd hx List.not_mem_nil, rfl⟩
  · unfold Listens Network.connect
    dsimp only
    split
    · trivial
    · exact ⟨rfl, List.nil_infix, fun _ => rfl⟩
    · next h => cases h
  · intro request rest d hclient
    cases hclient
  · intro d hd
    cases hd
    exact scan_nil _

/-! ### Steps of the client -/

variable {limits : Limits} {p : Client α} {s : Session α} {events : List RuntimeEvent}
  {replies : List (Result Text)} {served : List Served}

/-- What a client that waits listens to. -/
theorem Agrees.listens_waiting (h : Agrees limits p s events replies served) {request : Request}
    {rest : Result Text → Client α} {d : FrameDecoder}
    (hclient : s.client = .waiting request rest d) :
    Holds s.limits d d.buffer ∧
      Unread s.Alive served replies.length (d.buffer ++ s.toClient) := by
  have hlistens := h.listens
  unfold Listens at hlistens
  rw [hclient] at hlistens
  exact hlistens

/-- A client that is about to send something has the reply to everything it sent. -/
theorem Agrees.caughtUp (h : Agrees limits p s events replies served) {request : Request}
    {rest : Result Text → Client α} (hclient : s.client = .running (.call request rest)) :
    p.after replies = .call request rest ∧ served.length = replies.length ∧
      s.toClient <:+: byeFrame.wire ∧ (s.Alive → s.toClient = []) ∧
      ∀ d, s.server.decoder = some d → d.buffer ++ s.toServer = [] := by
  have hposition := h.position
  have hlistens := h.listens
  unfold Listens at hlistens
  rw [hclient] at hposition hlistens
  obtain ⟨hserved, hinfix, halive⟩ := hlistens
  refine ⟨hposition, hserved, hinfix, halive, fun d hd => ?_⟩
  have hunheard := (h.hears d hd).2.2
  have hrequests : (s.client.requests p replies)[served.length]? = none := by
    rw [hclient]
    show (p.asked replies)[served.length]? = none
    rw [List.getElem?_eq_none_iff, Dialogue.length_asked hposition, hserved]
  rwa [hrequests] at hunheard

/-- The requests after a reply that the client made itself or received. -/
theorem Agrees.requests_concat (h : Agrees limits p s events replies served) {request : Request}
    {rest : Result Text → Client α} (hprogram : s.client.program = .call request rest)
    (reply : Result Text) : p.asked (replies ++ [reply]) = p.asked replies ++ [request] :=
  Dialogue.asked_concat (h.position.trans hprogram) reply

/-- The replies before stay as they are. -/
theorem Agrees.got_concat (h : Agrees limits p s events replies served) {request : Request}
    {rest : Result Text → Client α} (hprogram : s.client.program = .call request rest)
    {reply : Result Text} (hreply : ∀ payload, reply = .ok payload →
      Got request payload served[replies.length]?) (j : Nat) (payload : Text)
    (hj : (replies ++ [reply])[j]? = some (Except.ok payload)) :
    ∃ request, (p.asked (replies ++ [reply]))[j]? = some request ∧
      Got request payload served[j]? := by
  have hlength := Dialogue.length_asked (h.position.trans hprogram)
  rw [h.requests_concat hprogram reply]
  rcases Nat.lt_or_ge j replies.length with hlt | hge
  · rw [List.getElem?_append_left hlt] at hj
    rw [List.getElem?_append_left (hlength.symm ▸ hlt)]
    exact h.got j payload hj
  · -- The only entry behind the earlier ones is the last one.
    have hlast : j = replies.length := by
      have hbound := (List.getElem?_eq_some_iff.mp hj).1
      rw [List.length_append, List.length_singleton] at hbound
      omega
    subst hlast
    rw [List.getElem?_concat_length] at hj
    refine ⟨request, ?_, hreply payload (Option.some.inj hj)⟩
    rw [← hlength, List.getElem?_concat_length]

/-- A client sends a request and waits for the reply. -/
theorem Agrees.sends (h : Agrees limits p s events replies served) {request : Request}
    {rest : Result Text → Client α} (hclient : s.client = .running (.call request rest))
    (hfits : request.payload.length + 8 ≤ s.limits.frameBytes.toNat) :
    Agrees limits p
      { s with client := .waiting request rest { limits := s.limits }
               toServer := s.toServer ++ request.frame.wire } events replies served := by
  obtain ⟨hposition, hserved, hinfix, halive, hunheard⟩ := h.caughtUp hclient
  have hrequests : s.client.requests p replies = p.asked replies := by
    rw [hclient]
    rfl
  refine ⟨hposition, ?_, h.answered, h.accepted, h.called, h.got, fun d hd => ?_, ?_, ?_, h.idles⟩
  · have hrequested := h.requested
    rw [hrequests] at hrequested
    exact hrequested.trans (List.prefix_append _ _)
  · refine ⟨(h.hears d hd).1, (h.hears d hd).2.1, ?_⟩
    show Unheard (p.asked replies ++ [request])[served.length]? _
    rw [hserved, ← Dialogue.length_asked hposition, List.getElem?_concat_length,
      ← List.append_assoc, hunheard d hd, List.nil_append]
    refine Or.inr ⟨Nat.lt_of_le_of_lt hfits (frameBytes_lt _), ?_⟩
    rw [List.append_nil]
  · exact ⟨⟨rfl, rfl, rfl⟩, .unanswered hserved halive (Or.inl hinfix)⟩
  · intro request' rest' d' hwaiting
    cases hwaiting
    refine ⟨scan_nil _, fun _ d hd => ?_⟩
    rw [← List.append_assoc, hunheard d hd, List.nil_append]

/-- A client gets a reply behind which it does nothing. -/
theorem Agrees.finishes (hquits : p.Quits Final) (h : Agrees limits p s events replies served)
    {request : Request} {rest : Result Text → Client α}
    (hprogram : s.client.program = .call request rest) {reply : Result Text}
    (hfinal : Final request reply)
    (hreply : ∀ payload, reply = .ok payload → Got request payload served[replies.length]?)
    (toServer toClient : Text)
    (hunheard : ∀ d, s.server.decoder = some d →
      Unheard (p.asked replies ++ [request])[served.length]? (d.buffer ++ toServer)) :
    Agrees limits p
      { s with client := .running (rest reply), toServer := toServer, toClient := toClient } events
      (replies ++ [reply]) served := by
  have hposition := h.position.trans hprogram
  obtain ⟨a, hdone⟩ := hquits.done hposition hfinal
  have hasked := h.requests_concat hprogram reply
  have hrequests : s.client.requests p replies <+: p.asked replies ++ [request] := by
    cases hclient : s.client with
    | running program => exact List.prefix_append _ _
    | waiting request' rest' d =>
        rw [hclient] at hprogram
        cases hprogram
        exact List.prefix_rfl
  refine ⟨Dialogue.after_concat hposition reply, ?_, h.answered, h.accepted, h.called,
    h.got_concat hprogram hreply, fun d hd => ⟨(h.hears d hd).1, (h.hears d hd).2.1, ?_⟩, ?_,
    (fun request rest d hwaiting => by cases hwaiting), h.idles⟩
  · show _ <+: p.asked (replies ++ [reply])
    rw [hasked]
    exact h.requested.trans hrequests
  · show Unheard (p.asked (replies ++ [reply]))[served.length]? _
    rw [hasked]
    exact hunheard d hd
  · unfold Listens
    rw [hdone]
    trivial

/-- A client that gives up while it waits. -/
theorem Agrees.loses (hquits : p.Quits Final) (h : Agrees limits p s events replies served)
    {request : Request} {rest : Result Text → Client α} {d : FrameDecoder}
    (hclient : s.client = .waiting request rest d) (toClient : Text) (e : Error) :
    Agrees limits p { s with client := .running (rest (.error e)), toClient := toClient } events
      (replies ++ [.error e]) served := by
  refine h.finishes hquits (by rw [hclient]; rfl) (Or.inr ⟨e, rfl⟩) (fun _ hok => by cases hok)
    s.toServer toClient fun d hd => ?_
  have hunheard := (h.hears d hd).2.2
  rw [hclient] at hunheard
  exact hunheard

/-- A client that cannot send its request. -/
theorem Agrees.tears (hquits : p.Quits Final) (h : Agrees limits p s events replies served)
    {request : Request} {rest : Result Text → Client α}
    (hclient : s.client = .running (.call request rest)) {bytes : Text} (e : Error)
    (hbytes : Begins request.frame [] bytes) :
    Agrees limits p { s with client := .running (rest (.error e)), toServer := s.toServer ++ bytes }
      events (replies ++ [.error e]) served := by
  obtain ⟨hposition, hserved, -, -, hunheard⟩ := h.caughtUp hclient
  refine h.finishes hquits (by rw [hclient]; rfl) (Or.inr ⟨e, rfl⟩) (fun _ hok => by cases hok)
    (s.toServer ++ bytes) s.toClient fun d hd => ?_
  rw [hserved, ← Dialogue.length_asked hposition, List.getElem?_concat_length,
    ← List.append_assoc, hunheard d hd, List.nil_append]
  exact hbytes

/-- A client receives a part of what it waits for. -/
theorem Agrees.reads (h : Agrees limits p s events replies served) {request : Request}
    {rest : Result Text → Client α} {d d' : FrameDecoder}
    (hclient : s.client = .waiting request rest d) {toClient : Text}
    (hd : Holds s.limits d' d'.buffer) (hwaits : scan s.limits d'.buffer = .ok none)
    (hbytes : d'.buffer ++ toClient = d.buffer ++ s.toClient) :
    Agrees limits p { s with client := .waiting request rest d', toClient := toClient } events
      replies served := by
  have hrequests : s.client.requests p replies = p.asked replies ++ [request] := by
    rw [hclient]
    rfl
  have hposition := h.position
  have hrequested := h.requested
  rw [hclient] at hposition
  rw [hrequests] at hrequested
  refine ⟨hposition, hrequested, h.answered, h.accepted, h.called, h.got, fun d hd => ?_,
    ⟨hd, ?_⟩, ?_, h.idles⟩
  · have hhears := h.hears d hd
    rw [hrequests] at hhears
    exact hhears
  · rw [hbytes]
    exact (h.listens_waiting hclient).2
  · intro request' rest' d'' hwaiting
    cases hwaiting
    exact ⟨hwaits, (h.waits request rest d hclient).2⟩

/-- A client gets the frame at the front of what it reads. -/
theorem Agrees.gets (hquits : p.Quits Final) (h : Agrees limits p s events replies served)
    {request : Request} {rest : Result Text → Client α} {d : FrameDecoder}
    (hclient : s.client = .waiting request rest d) {toClient buffer dropped : Text} {frame : Frame}
    (hbytes : buffer ++ toClient = d.buffer ++ s.toClient)
    (hframe : scan s.limits buffer = .ok (some (frame, dropped)))
    (htype : frame.type = request.expected) (herror : frame.type ≠ .error) :
    Agrees limits p { s with client := .running (rest (.ok frame.payload)), toClient := toClient }
      events (replies ++ [.ok frame.payload]) served := by
  have hprogram : s.client.program = .call request rest := by
    rw [hclient]
    rfl
  have hunheard : ∀ d, s.server.decoder = some d →
      Unheard (p.asked replies ++ [request])[served.length]? (d.buffer ++ s.toServer) := by
    intro d hd
    have hunheard := (h.hears d hd).2.2
    rw [hclient] at hunheard
    exact hunheard
  obtain ⟨-, hunread⟩ := h.listens_waiting hclient
  rw [← hbytes] at hunread
  cases hunread with
  | unanswered hserved halive hpart =>
      rcases hpart with hpart | ⟨farewell, hfarewell, hbegins⟩
      · -- The server stopped. Its goodbye is a reply to a goodbye only.
        have hbye : frame = byeFrame.sealed :=
          scan_bye ((List.prefix_append buffer toClient).isInfix.trans hpart) hframe
        rw [hbye] at htype
        exact h.finishes hquits hprogram (Or.inl htype.symm)
          (fun payload _ => Or.inl htype.symm) s.toServer toClient hunheard
      · obtain ⟨rfl, -⟩ := (hbegins.of_prefix (List.prefix_append buffer toClient)).scan hframe
        exact absurd hfarewell herror
  | answered before served' hserved hnumber halive hpart =>
      obtain ⟨rfl, rfl, -⟩ := (hpart.of_prefix (List.prefix_append buffer toClient)).scan hframe
      have hserved' : served[replies.length]? = some served' := by
        rw [hserved, ← hnumber, List.getElem?_concat_length]
      have hgot : ∀ payload, (.ok served'.reply.sealed.payload : Result Text) = .ok payload →
          Got request payload served[replies.length]? := by
        rintro payload hpayload
        cases hpayload
        exact Or.inr ⟨served', hserved', htype, rfl⟩
      have hposition := h.position.trans hprogram
      have hasked := h.requests_concat hprogram (.ok served'.reply.sealed.payload)
      refine ⟨Dialogue.after_concat hposition _, ?_, h.answered, h.accepted, h.called,
        h.got_concat hprogram hgot, fun d hd => ⟨(h.hears d hd).1, (h.hears d hd).2.1, ?_⟩, ?_,
        (fun request rest d hwaiting => by cases hwaiting), h.idles⟩
      · show _ <+: p.asked (replies ++ [_])
        rw [hasked]
        have hrequested := h.requested
        rw [hclient] at hrequested
        exact hrequested
      · show Unheard (p.asked (replies ++ [_]))[served.length]? _
        rw [hasked]
        exact hunheard d hd
      · -- What was behind the reply is all that is left.
        have hlength : served.length = (replies ++ [Except.ok served'.reply.sealed.payload]).length := by
          rw [hserved, List.length_append, List.length_append, hnumber]
          rfl
        have hleft : toClient <:+: byeFrame.wire := by
          rcases hpart with hnil | ⟨-, hpre⟩
          · rw [(List.append_eq_nil_iff.mp hnil).2]
            exact List.nil_infix
          · rw [List.append_assoc, List.prefix_append_right_inj] at hpre
            exact (List.suffix_append dropped toClient).isInfix.trans hpre.isInfix
        have hempty : s.Alive → toClient = [] := by
          intro hs
          have hwhole := halive hs
          rw [List.append_assoc] at hwhole
          exact (List.append_eq_nil_iff.mp (List.append_right_eq_self.mp hwhole)).2
        unfold Listens
        dsimp only
        split
        · trivial
        · exact ⟨hlength, hleft, hempty⟩
        · next hwaiting => cases hwaiting

/-! ### Steps of the server -/

/-- A server that is done is not asked for more. -/
theorem Unread.mono {alive alive' : Prop} {number : Nat} {bytes : Text}
    (h : Unread alive served number bytes) (halive : alive' → alive) :
    Unread alive' served number bytes := by
  cases h with
  | unanswered hserved hnil hbytes => exact .unanswered hserved (fun ha => hnil (halive ha)) hbytes
  | answered before served' hserved hnumber hwire hbytes =>
      exact .answered before served' hserved hnumber (fun ha => hwire (halive ha)) hbytes

/-- A server has heard of every request before, and of no other one. -/
theorem Agrees.unheard_none (h : Agrees limits p s events replies served)
    {request : Request} {rest : Result Text → Client α} {d : FrameDecoder}
    (hclient : s.client = .waiting request rest d) (hserved : replies.length < served.length) :
    (s.client.requests p replies)[served.length]? = none := by
  have hposition := h.position
  rw [hclient] at hposition ⊢
  show (p.asked replies ++ [request])[served.length]? = none
  rw [List.getElem?_eq_none_iff, List.length_append, Dialogue.length_asked hposition]
  exact hserved

/-- The server takes bytes off the stream. -/
theorem Agrees.takes (h : Agrees limits p s events replies served) {d d' : FrameDecoder}
    {server : ServerThread} {toServer : Text} (hserver : s.server.decoder = some d)
    (hserver' : server.decoder = some d') (hd : Holds limits d' d'.buffer)
    (hwaits : server = .receiving d' → scan limits d'.buffer = .ok none)
    (hbytes : d'.buffer ++ toServer = d.buffer ++ s.toServer) :
    Agrees limits p { s with server := server, toServer := toServer } events replies served := by
  have halive : Alive { s with server := server, toServer := toServer } ↔ s.Alive := by
    show server.decoder.isSome ↔ s.server.decoder.isSome
    rw [hserver, hserver']
    exact Iff.rfl
  refine ⟨h.position, h.requested, h.answered, h.accepted, h.called, h.got, fun d'' hd'' => ?_, ?_,
    fun request rest dc hwaiting => ?_, fun d'' hd'' => ?_⟩
  · obtain rfl : d' = d'' := Option.some.inj (hserver'.symm.trans hd'')
    refine ⟨hd, (h.hears d hserver).2.1, ?_⟩
    show Unheard _ (d'.buffer ++ toServer)
    rw [hbytes]
    exact (h.hears d hserver).2.2
  · have hlistens := h.listens
    unfold Listens at hlistens ⊢
    dsimp only
    split at hlistens
    · trivial
    · exact ⟨hlistens.1, hlistens.2.1, fun ha => hlistens.2.2 (halive.mp ha)⟩
    · exact ⟨hlistens.1, hlistens.2.mono halive.mp⟩
  · obtain ⟨hnone, hwhole⟩ := h.waits request rest dc hwaiting
    refine ⟨hnone, fun hserved d'' hd'' => ?_⟩
    obtain rfl : d' = d'' := Option.some.inj (hserver'.symm.trans hd'')
    rw [hbytes]
    exact hwhole hserved d hserver
  · obtain rfl : d' = d'' := by
      rw [show server = .receiving d'' from hd''] at hserver'
      exact (Option.some.inj hserver').symm
    exact hwaits hd''

/-- The server ends. -/
theorem Agrees.ends (h : Agrees limits p s events replies served) {d : FrameDecoder}
    (hserver : s.server.decoder = some d) (status : Status) {farewell : Frame} {bytes : Text}
    (toServer : Text) (greeted : Bool) (log : List ServerEffect)
    (hbytes : Begins farewell [] bytes)
    (hfarewell : farewell = byeFrame ∨ farewell.type = .error ∧ d.buffer ++ s.toServer ≠ []) :
    Agrees limits p
      { s with server := .ended status, toServer := toServer, toClient := s.toClient ++ bytes
               greeted := greeted, log := log } events replies served := by
  have halive : s.Alive := by
    unfold Alive
    rw [hserver]
    rfl
  have hended : ∀ {q : Prop}, Alive { s with
      server := .ended status, toServer := toServer, toClient := s.toClient ++ bytes
      greeted := greeted, log := log } → q := fun hs => by cases hs
  refine ⟨h.position, h.requested, h.answered, h.accepted, h.called, h.got,
    (fun d' hd' => by cases hd'), ?_, fun request rest dc hwaiting =>
      ⟨(h.waits request rest dc hwaiting).1, fun _ d' hd' => by cases hd'⟩,
    fun d' hd' => by cases hd'⟩
  have hunheard := (h.hears d hserver).2.2
  have hlistens := h.listens
  unfold Listens at hlistens ⊢
  dsimp only
  split at hlistens
  · trivial
  · next request rest hclient =>
      -- The client has nothing under way, so the server cannot have misunderstood it.
      obtain ⟨-, -, -, -, hnothing⟩ := h.caughtUp hclient
      rcases hfarewell with rfl | ⟨-, hheard⟩
      · refine ⟨hlistens.1, ?_, hended⟩
        rw [hlistens.2.2 halive, List.nil_append]
        exact hbytes.prefix_wire.isInfix
      · exact absurd (hnothing d hserver) hheard
  · next request rest dc hclient =>
      refine ⟨hlistens.1, ?_⟩
      rw [← List.append_assoc]
      cases hlistens.2 with
      | unanswered hserved hnil hpart =>
          refine .unanswered hserved hended ?_
          rw [hnil halive, List.nil_append]
          rcases hfarewell with rfl | ⟨herror, -⟩
          · exact Or.inl hbytes.prefix_wire.isInfix
          · exact Or.inr ⟨farewell, herror, hbytes⟩
      | answered before served' hserved hnumber hwire hpart =>
          have hnone := h.unheard_none hclient (by
            rw [hserved, List.length_append, hnumber]
            exact Nat.lt_succ_self _)
          rw [hnone] at hunheard
          rcases hfarewell with rfl | ⟨-, hheard⟩
          · refine .answered before served' hserved hnumber hended ?_
            have hwhole := hwire halive
            rw [hwhole] at hpart ⊢
            rcases hpart with hnil | ⟨hsize, -⟩
            · have hlength := served'.reply.length_wire
              rw [hnil, List.length_nil, Frame.wireSize] at hlength
              omega
            · exact Or.inr ⟨hsize, (List.prefix_append_right_inj _).mpr hbytes.prefix_wire⟩
          · exact absurd hunheard hheard

/-- A frame that the server hears is the request that it did not answer yet, and nothing is behind
it. -/
theorem Agrees.hears_frame (h : Agrees limits p s events replies served) {d : FrameDecoder}
    (hserver : s.server.decoder = some d) {frame : Frame} {rest : Text}
    (hframe : scan limits d.buffer = .ok (some (frame, rest))) :
    ∃ request, (s.client.requests p replies)[served.length]? = some request ∧
      frame = request.frame.sealed ∧ rest = [] ∧ s.toServer = [] ∧
      d.buffer ++ s.toServer ≠ [] := by
  obtain ⟨-, -, hunheard⟩ := h.hears d hserver
  have hbuffer : d.buffer ++ s.toServer ≠ [] := by
    intro hnil
    rw [(List.append_eq_nil_iff.mp hnil).1, scan_nil] at hframe
    cases hframe
  cases hrequest : (s.client.requests p replies)[served.length]? with
  | none =>
      rw [hrequest] at hunheard
      exact absurd hunheard hbuffer
  | some request =>
      rw [hrequest] at hunheard
      obtain ⟨rfl, hwire, hrest⟩ :=
        (hunheard.of_prefix (List.prefix_append d.buffer s.toServer)).scan hframe
      obtain rfl : rest = [] := List.prefix_nil.mp hrest
      refine ⟨request, rfl, rfl, rfl, ?_, hbuffer⟩
      have hpre := hunheard.prefix_wire
      rw [hwire, List.append_nil] at hpre
      exact List.append_right_eq_self.mp
        (hpre.eq_of_length_le (by rw [List.length_append]; omega))

/-- The request that follows the answered ones. -/
theorem prefix_concat {β : Type} {l m : List β} (h : l <+: m) {b : β} (hb : m[l.length]? = some b) :
    l ++ [b] <+: m := by
  obtain ⟨others, rfl⟩ := h
  rw [List.getElem?_append_right (Nat.le_refl _), Nat.sub_self] at hb
  cases others with
  | nil => cases hb
  | cons first others =>
      cases hb
      exact ⟨others, by rw [List.append_assoc]; rfl⟩

/-- The server answers the request that it did not answer yet. -/
theorem Agrees.answers (h : Agrees limits p s events replies served) {d : FrameDecoder}
    (hserver : s.server.decoder = some d) {frame : Frame} {rest : Text}
    (hframe : scan limits d.buffer = .ok (some (frame, rest))) {calls : List RuntimeEvent}
    {reply : Frame} (hanswered : Answered limits frame.type frame.payload calls reply)
    {server : ServerThread} {bytes : Text} (greeted : Bool) (log : List ServerEffect)
    (hbytes : Begins reply [] bytes)
    (hgoes : ∀ d', server.decoder = some d' → server = .serving d' ∧ Holds limits d' rest ∧
      bytes = reply.wire ∧ reply.type ≠ .error) :
    InAgreement limits p
      { s with server := server, toClient := s.toClient ++ bytes, greeted := greeted, log := log }
      (events ++ calls) := by
  have halive : s.Alive := by
    unfold Alive
    rw [hserver]
    rfl
  have haccepted := (h.hears d hserver).2.1
  obtain ⟨request, hrequest, rfl, rfl, htoServer, hbuffer⟩ := h.hears_frame hserver hframe
  refine ⟨replies, served ++ [⟨request, calls, reply⟩], h.position, ?_, ?_, ?_, ?_, ?_,
    fun d' hd' => ?_, ?_, fun request' rest' dc hwaiting => ?_, fun d' hd' => ?_⟩
  · rw [List.map_append, List.map_singleton]
    exact prefix_concat h.requested (by rw [List.length_map]; exact hrequest)
  · intro x hx
    rcases List.mem_append.mp hx with hx | hx
    · exact h.answered x hx
    · obtain rfl := List.mem_singleton.mp hx
      exact hanswered
  · rw [List.dropLast_concat]
    exact haccepted
  · rw [List.flatMap_append, h.called, List.flatMap_singleton]
  · intro j payload hj
    obtain ⟨asked, hasked, hgot⟩ := h.got j payload hj
    refine ⟨asked, hasked, ?_⟩
    rcases hgot with hbye | ⟨served', hserved', htype, hpayload⟩
    · exact Or.inl hbye
    · refine Or.inr ⟨served', ?_, htype, hpayload⟩
      rw [List.getElem?_append_left (List.getElem?_eq_some_iff.mp hserved').1, hserved']
  · obtain ⟨-, hholds, -, hreply⟩ := hgoes d' hd'
    refine ⟨⟨hholds.idle, hholds.limits_eq, rfl⟩, ?_, ?_⟩
    · intro x hx
      rcases List.mem_append.mp hx with hx | hx
      · exact haccepted x hx
      · obtain rfl := List.mem_singleton.mp hx
        exact hreply
    · show Unheard _ (d'.buffer ++ s.toServer)
      rw [hholds.buffer_eq, htoServer, List.append_nil]
      unfold Unheard
      split
      · rfl
      · exact .nil _ _
  · have hlistens := h.listens
    unfold Listens at hlistens ⊢
    dsimp only
    split at hlistens
    · trivial
    · next asked rest hclient =>
        obtain ⟨-, -, -, -, hnothing⟩ := h.caughtUp hclient
        exact absurd (hnothing d hserver) hbuffer
    · next asked rest dc hclient =>
        refine ⟨hlistens.1, ?_⟩
        rw [← List.append_assoc]
        cases hlistens.2 with
        | unanswered hserved hnil hpart =>
            rw [hnil halive, List.nil_append]
            refine .answered served _ rfl hserved (fun hs => ?_) (hbytes.append _)
            obtain ⟨d', hd'⟩ := Option.isSome_iff_exists.mp hs
            exact (hgoes d' hd').2.2.1
        | answered before served' hserved hnumber hwire' hpart =>
            have hnone := h.unheard_none hclient (by
              rw [hserved, List.length_append, hnumber]
              exact Nat.lt_succ_self _)
            rw [hnone] at hrequest
            cases hrequest
  · -- The reply to the request is under way, so the second part is about no client.
    refine ⟨(h.waits request' rest' dc hwaiting).1, fun hlength => ?_⟩
    rw [List.length_append, List.length_singleton] at hlength
    have hle : replies.length ≤ served.length := by
      cases (h.listens_waiting hwaiting).2 with
      | unanswered hserved hnil hpart => exact hserved.ge
      | answered before served' hserved hnumber hwire' hpart =>
          rw [hserved, List.length_append, hnumber]
          exact Nat.le_add_right _ _
    omega
  · rw [show server = .receiving d' from hd'] at hgoes
    cases (hgoes d' rfl).1

/-! ### Runs -/

theorem Agrees.moves (h : Agrees limits p s events replies served) (config : ServerConfig)
    {shared : ServerShared} (hlimits : shared.runtime.config.limits = limits)
    (action : SessionAction) :
    Moves limits s (s.act config shared action).1 (s.act config shared action).2.2 :=
  act_moves action hlimits (fun _ _ _ hclient => (h.listens_waiting hclient).1)
    fun d hd => (h.hears d hd).1

/-- Each step keeps the agreement. -/
theorem inAgreement_act (hquits : p.Quits Final) (config : ServerConfig) {shared : ServerShared}
    (hlimits : shared.runtime.config.limits = limits) (h : InAgreement limits p s events)
    (action : SessionAction) :
    InAgreement limits p (s.act config shared action).1
      (events ++ (s.act config shared action).2.2) := by
  obtain ⟨replies, served, h⟩ := h
  have hmoves := h.moves config hlimits action
  generalize (s.act config shared action).1 = s', (s.act config shared action).2.2 = calls at hmoves
  cases hmoves with
  | stays => exact ⟨replies, served, by rwa [List.append_nil]⟩
  | sends request rest hclient hfits =>
      exact ⟨_, _, by rw [List.append_nil]; exact h.sends hclient hfits⟩
  | tears request rest hclient bytes e hbytes =>
      exact ⟨_, _, by rw [List.append_nil]; exact h.tears hquits hclient e hbytes⟩
  | reads request rest d d' hclient toClient hshrinks hd hwaits hbytes =>
      exact ⟨_, _, by rw [List.append_nil]; exact h.reads hclient hd hwaits hbytes⟩
  | gets request rest d hclient toClient buffer dropped frame hbytes hframe htype herror =>
      exact ⟨_, _, by
        rw [List.append_nil]
        exact h.gets hquits hclient hbytes hframe htype herror⟩
  | loses request rest d hclient toClient e =>
      exact ⟨_, _, by rw [List.append_nil]; exact h.loses hquits hclient toClient e⟩
  | hears d d' server toServer hserver hserver' hshrinks hd hwaits hbytes =>
      exact ⟨_, _, by rw [List.append_nil]; exact h.takes hserver hserver' hd hwaits hbytes⟩
  | ends d hserver status farewell bytes toServer greeted log hbytes hfarewell =>
      exact ⟨_, _, by
        rw [List.append_nil]
        exact h.ends hserver status toServer greeted log hbytes hfarewell⟩
  | answers d hserver frame rest hframe calls reply hanswered server bytes greeted log hbytes hgoes =>
      exact h.answers hserver hframe hanswered greeted log hbytes hgoes

end Session

namespace Network

variable [DecidableEq ι]

/-- **Client and server agree in every session of every run**, when the programs quit at their
first error. -/
theorem agrees_run (config : ServerConfig) (runtime : Runtime) (stats : ServerStats)
    (limits : ι → Limits) (programs : ι → Client α) (hquits : ∀ i, (programs i).Quits Final)
    (turns : List (Turn ι SessionAction ServerShared)) :
    (run (step config) (start runtime stats limits programs) turns).shared.runtime.config
        = runtime.config ∧
      ∀ i, Session.InAgreement runtime.config.limits (programs i)
        ((run (step config) (start runtime stats limits programs) turns).own i)
        ((run (step config) (start runtime stats limits programs) turns).eventsOf i) := by
  refine Parties.own_run (Session.act config) interfere
    (Q := fun shared => shared.runtime.config = runtime.config)
    (fun i s events => Session.InAgreement runtime.config.limits (programs i) s events)
    ?_ ?_ ?_ rfl ?_ turns
  · intro i s shared action events hshared h
    exact Session.inAgreement_act (hquits i) config (congrArg RuntimeConfig.limits hshared) h action
  · exact fun s shared action h => (Session.act_config s shared action).trans h
  · exact fun shared other h => h
  · exact fun i => Session.inAgreement_connect runtime.config.limits (limits i) (programs i)

end Network

/-! ### Pushes -/

/-- Of the requests behind the greeting, the server acknowledged the first ones and made no call for
the others. -/
theorem exists_acknowledged {limits : Limits} {records : List EvidenceRecord} {rest : List Served}
    (hrequests : rest.map Served.request <+: records.map ingestRequest ++ [byeRequest])
    (hanswered : ∀ x ∈ rest,
      Answered limits x.request.type x.request.payload x.calls x.reply)
    (haccepted : ∀ x ∈ rest.dropLast, x.reply.type ≠ .error) :
    ∃ acked : List Served, acked.map Served.request <+: records.map ingestRequest ∧
      (∀ x ∈ acked, Acknowledges limits x.request.payload x.calls x.reply.payload) ∧
      rest.flatMap Served.calls = acked.flatMap Served.calls ∧
      ∀ (j : Nat) x, rest[j]? = some x → x.reply.type = .ingestAck → acked[j]? = some x := by
  induction records generalizing rest with
  | nil =>
      refine ⟨[], List.nil_prefix, fun x hx => absurd hx List.not_mem_nil, ?_, ?_⟩
      all_goals
        have hnone : ∀ x ∈ rest, x.reply.type ≠ .ingestAck ∧ x.calls = [] := by
          intro x hx
          have hbye : x.request = byeRequest :=
            List.mem_singleton.mp (hrequests.subset (List.mem_map_of_mem hx))
          have hx' := hanswered x hx
          rw [hbye] at hx'
          exact hx'.not_ingest (by decide)
      · exact List.flatMap_eq_nil_iff.mpr fun x hx => (hnone x hx).2
      · exact fun j x hj hack => absurd hack (hnone x (List.mem_of_getElem? hj)).1
  | cons record records ih =>
      cases rest with
      | nil =>
          exact ⟨[], List.nil_prefix, fun x hx => absurd hx List.not_mem_nil, rfl,
            fun j x hj => by cases hj⟩
      | cons x rest =>
          rw [List.map_cons, List.map_cons, List.cons_append, List.cons_prefix_cons] at hrequests
          obtain ⟨hrequest, hrequests⟩ := hrequests
          have hx := hanswered x List.mem_cons_self
          by_cases hack : x.reply.type = .ingestAck
          · obtain ⟨acked, hpre, hacked, hcalls, hfound⟩ := ih hrequests
              (fun y hy => hanswered y (List.mem_cons_of_mem x hy)) (fun y hy => by
                refine haccepted y ?_
                cases rest with
                | nil => cases hy
                | cons z rest => exact List.mem_cons_of_mem x hy)
            refine ⟨x :: acked, ?_, ?_, ?_, ?_⟩
            · rw [List.map_cons, List.map_cons, List.cons_prefix_cons]
              exact ⟨hrequest, hpre⟩
            · exact List.forall_mem_cons.mpr ⟨hx.acknowledges hack, hacked⟩
            · rw [List.flatMap_cons, List.flatMap_cons, hcalls]
            · intro j y hj hy
              cases j with
              | zero => exact hj
              | succ j => exact hfound j y hj hy
          · -- Only the last request is refused.
            have hlast : rest = [] := by
              cases rest with
              | nil => rfl
              | cons y rest =>
                  have herror := haccepted x List.mem_cons_self
                  rw [hrequest] at hx
                  exact absurd (hx.ingestAck herror) hack
            subst hlast
            refine ⟨[], List.nil_prefix, fun y hy => absurd hy List.not_mem_nil, ?_, ?_⟩
            · rw [List.flatMap_singleton, hx.calls_eq_nil hack]
              rfl
            · intro j y hj hy
              obtain rfl := List.mem_singleton.mp (List.mem_of_getElem? hj)
              exact absurd hy hack

/-- What the server did for a client that pushes, and what the client knows of it. -/
structure Pushed (limits : Limits) (client : IngestClientConfig) (records : List EvidenceRecord)
    (events : List RuntimeEvent) (returned : Option (Result IngestClientResult))
    (acked : List Served) : Prop where
  inOrder : acked.map Served.request <+: records.map ingestRequest
  acknowledged : ∀ x ∈ acked,
    Acknowledges limits x.request.payload x.calls x.reply.payload
  called : events = acked.flatMap Served.calls
  complete : ∀ result, returned = some (.ok result) →
    acked.map Served.request = records.map ingestRequest ∧
      ListsAcks client.limits (acked.map fun x => x.reply.payload) result

/-- The requests of a push. -/
theorem Session.Agrees.requests_push {limits : Limits} {client : IngestClientConfig}
    {records : List EvidenceRecord} {s : Session (Result IngestClientResult)}
    {events : List RuntimeEvent} {replies : List (Result Text)} {served : List Served}
    (h : Agrees limits (pushRecords client records) s events replies served) :
    s.client.requests (pushRecords client records) replies
      <+: helloRequest client :: (records.map ingestRequest ++ [byeRequest]) := by
  have hposition := h.position
  cases hclient : s.client with
  | running program => exact asked_pushRecords client records replies
  | waiting request rest d =>
      rw [hclient] at hposition
      have hasked := asked_pushRecords client records (replies ++ [.ok []])
      rwa [Dialogue.asked_concat hposition] at hasked

theorem Session.Agrees.pushed {limits : Limits} {client : IngestClientConfig}
    {records : List EvidenceRecord} {s : Session (Result IngestClientResult)}
    {events : List RuntimeEvent} {replies : List (Result Text)} {served : List Served}
    (h : Agrees limits (pushRecords client records) s events replies served) :
    ∃ acked, Pushed limits client records events s.returned acked := by
  have hrequests := h.requested.trans h.requests_push
  obtain ⟨acked, hpre, hacked, hcalls, hfound⟩ : ∃ acked : List Served,
      acked.map Served.request <+: records.map ingestRequest ∧
        (∀ x ∈ acked, Acknowledges limits x.request.payload x.calls x.reply.payload) ∧
        served.flatMap Served.calls = acked.flatMap Served.calls ∧
        ∀ (j : Nat) x, served[j + 1]? = some x → x.reply.type = .ingestAck →
          acked[j]? = some x := by
    cases served with
    | nil =>
        exact ⟨[], List.nil_prefix, fun x hx => absurd hx List.not_mem_nil, rfl,
          fun j x hj => by cases hj⟩
    | cons first rest =>
        rw [List.map_cons, List.cons_prefix_cons] at hrequests
        have hfirst := h.answered first List.mem_cons_self
        rw [hrequests.1] at hfirst
        obtain ⟨acked, hpre, hacked, hcalls, hfound⟩ := exists_acknowledged hrequests.2
          (fun x hx => h.answered x (List.mem_cons_of_mem first hx)) (fun x hx => by
            refine h.accepted x ?_
            cases rest with
            | nil => cases hx
            | cons y rest => exact List.mem_cons_of_mem first hx)
        refine ⟨acked, hpre, hacked, ?_, hfound⟩
        have hnone := (hfirst.not_ingest (by simp [helloRequest])).2
        rw [List.flatMap_cons, hnone, hcalls, List.nil_append]
  refine ⟨acked, hpre, hacked, h.called.trans hcalls, fun result hreturned => ?_⟩
  -- A client that returned a result got an acknowledgement of the server for each record.
  have hdone : (pushRecords client records).after replies = .done (.ok result) := by
    have hposition := h.position
    cases hclient : s.client with
    | running program =>
        rw [Session.returned, hclient] at hreturned
        rw [hclient] at hposition
        exact hposition.trans (Dialogue.returned_eq_some.mp hreturned)
    | waiting request rest d =>
        rw [Session.returned, hclient] at hreturned
        cases hreturned
  obtain ⟨welcome, acks, last, extra, hreplies, hlength, hreports⟩ := returned_pushRecords hdone
  have hack : ∀ (j : Nat) ack, acks[j]? = some ack →
      ∃ x, acked[j]? = some x ∧ x.reply.payload = ack := by
    intro j ack hj
    have hbound : j < acks.length := (List.getElem?_eq_some_iff.mp hj).1
    have hreply : replies[j + 1]? = some (Except.ok ack) := by
      rw [hreplies, List.getElem?_cons_succ, List.getElem?_append_left (by simpa using hbound),
        List.getElem?_map, hj]
      rfl
    obtain ⟨request, hasked, hgot⟩ := h.got (j + 1) ack hreply
    have hrequest : ∃ record, request = ingestRequest record := by
      obtain ⟨hlt, hget⟩ := List.getElem?_eq_some_iff.mp hasked
      have hsome := List.prefix_iff_getElem?.mp (asked_pushRecords client records replies) (j + 1) hlt
      rw [hget, List.getElem?_cons_succ, List.getElem?_append_left (by simpa [← hlength] using hbound),
        List.getElem?_map, Option.map_eq_some_iff] at hsome
      obtain ⟨record, -, hrecord⟩ := hsome
      exact ⟨record, hrecord.symm⟩
    obtain ⟨record, rfl⟩ := hrequest
    rcases hgot with hbye | ⟨x, hx, htype, hpayload⟩
    · cases hbye
    · exact ⟨x, hfound j x hx htype, hpayload⟩
  have hcount : records.length ≤ acked.length := by
    by_contra hshort
    obtain ⟨x, hx, -⟩ := hack acked.length (acks.get ⟨acked.length, by omega⟩)
      (List.getElem?_eq_getElem _)
    rw [List.getElem?_eq_none (Nat.le_refl _)] at hx
    cases hx
  have hall : acked.map Served.request = records.map ingestRequest :=
    hpre.eq_of_length_le (by rwa [List.length_map, List.length_map])
  have hpayloads : acked.map (fun x => x.reply.payload) = acks := by
    have hsame : acked.length = acks.length := by
      have := congrArg List.length hall
      rw [List.length_map, List.length_map] at this
      omega
    refine List.ext_getElem? fun j => ?_
    rw [List.getElem?_map]
    cases hj : acks[j]? with
    | none =>
        rw [List.getElem?_eq_none_iff] at hj
        rw [List.getElem?_eq_none (by omega)]
        rfl
    | some ack =>
        obtain ⟨x, hx, hpayload⟩ := hack j ack hj
        rw [hx, ← hpayload]
        rfl
  exact ⟨hall, hpayloads ▸ hreports⟩

/-- **Clients and server agree on every push.** In every run of several clients that push records to
one server, the server acknowledged a first part of the records of each client, in order and once
each, and the calls it made for the client are those of the acknowledgements. A client that returns
a result has all of its records acknowledged, and reports what these acknowledgements say. -/
theorem pushes_agree [DecidableEq ι] (config : ServerConfig) (runtime : Runtime)
    (stats : ServerStats) (clients : ι → IngestClientConfig) (records : ι → List EvidenceRecord)
    (turns : List (Turn ι SessionAction ServerShared)) (i : ι) :
    ∃ acked, Pushed runtime.config.limits (clients i) (records i)
      ((run (Network.step config) (Network.pushing runtime stats clients records)
        turns).eventsOf i)
      ((run (Network.step config) (Network.pushing runtime stats clients records)
        turns).own i).returned acked := by
  obtain ⟨replies, served, h⟩ := (Network.agrees_run config runtime stats
    (fun i => (clients i).limits) (fun i => pushRecords (clients i) (records i))
    (fun i => quits_pushRecords (clients i) (records i)) turns).2 i
  exact h.pushed

/-! ### What the clients report -/

/-- A record that a client pushed: the calls the server made for it, and the outcome that the client
reports. -/
structure Handled where
  record : EvidenceRecord
  calls : List RuntimeEvent
  outcome : IngestOutcome

/-- The outcome is what the runtime answered to the record that the server decoded. A record that
the server could not decode is reported as the default outcome. -/
inductive Faithful (limits : Limits) (record : EvidenceRecord) (calls : List RuntimeEvent)
    (outcome : IngestOutcome) : Prop where
  | unreadable (e : Error) (hread : decodeIngestJson (encodeIngestJson record) limits = .error e)
      (hcalls : calls = []) (houtcome : outcome = ({} : IngestOutcome).reported)
  | ingested (decoded : EvidenceRecord) (now : Timestamp) (result : Result IngestOutcome)
      (hread : decodeIngestJson (encodeIngestJson record) limits = .ok decoded)
      (hcalls : calls = [(.ingest decoded now, .admitted result)])
      (houtcome : outcome = (acknowledged decoded result).reported)

theorem faithful_of_acknowledges {limits clientLimits : Limits} {record : EvidenceRecord}
    {calls : List RuntimeEvent} {ack : Text} {outcome : IngestOutcome}
    (h : Acknowledges limits (encodeIngestJson record) calls ack)
    (hread : readAck clientLimits ack = .ok outcome) : Faithful limits record calls outcome := by
  cases h with
  | unreadable e hdecode hcalls hack =>
      rw [hack, readAck_encode] at hread
      exact .unreadable e hdecode hcalls hread.2.2.2
  | ingested decoded now result hdecode hcalls hack =>
      rw [hack, readAck_encode] at hread
      exact .ingested decoded now result hdecode hcalls hread.2.2.2

theorem exists_handled {limits clientLimits : Limits} {records : List EvidenceRecord}
    {acked : List Served} {outcomes : List IngestOutcome}
    (hrequests : acked.map Served.request = records.map ingestRequest)
    (hacked : ∀ x ∈ acked, Acknowledges limits x.request.payload x.calls x.reply.payload)
    (houtcomes : List.Forall₂ (fun ack outcome => readAck clientLimits ack = .ok outcome)
      (acked.map fun x => x.reply.payload) outcomes) :
    ∃ handled : List Handled, handled.map Handled.record = records ∧
      handled.map Handled.outcome = outcomes ∧
      acked.flatMap Served.calls = handled.flatMap Handled.calls ∧
      ∀ x ∈ handled, Faithful limits x.record x.calls x.outcome := by
  induction acked generalizing records outcomes with
  | nil =>
      cases List.map_eq_nil_iff.mp hrequests.symm
      cases houtcomes
      exact ⟨[], rfl, rfl, rfl, fun x hx => absurd hx List.not_mem_nil⟩
  | cons x acked ih =>
      cases records with
      | nil => cases hrequests
      | cons record records =>
          rw [List.map_cons, List.map_cons, List.cons.injEq] at hrequests
          obtain ⟨hrequest, hrequests⟩ := hrequests
          cases houtcomes with
          | @cons _ outcome _ outcomes hread houtcomes =>
              obtain ⟨handled, hrecords, hreported, hcalls, hfaithful⟩ := ih hrequests
                (fun y hy => hacked y (List.mem_cons_of_mem x hy)) houtcomes
              have hx := hacked x List.mem_cons_self
              simp only [hrequest, ingestRequest] at hx
              refine ⟨⟨record, x.calls, outcome⟩ :: handled, ?_, ?_, ?_, ?_⟩
              · rw [List.map_cons, hrecords]
              · rw [List.map_cons, hreported]
              · rw [List.flatMap_cons, List.flatMap_cons, hcalls]
              · exact List.forall_mem_cons.mpr
                  ⟨faithful_of_acknowledges hx hread, hfaithful⟩

/-- **What a client reports is what the runtime answered**, record by record: however the pushes
of other clients, the other threads of the process and failures interleave, a client that returns a
result lists for each of its records, in order, the outcome of the one call the server made for it,
or the default outcome where the server could not decode the record and made no call. -/
theorem pushes_report [DecidableEq ι] (config : ServerConfig) (runtime : Runtime)
    (stats : ServerStats) (clients : ι → IngestClientConfig) (records : ι → List EvidenceRecord)
    (turns : List (Turn ι SessionAction ServerShared)) (i : ι) (result : IngestClientResult)
    (hreturned : ((run (Network.step config) (Network.pushing runtime stats clients records)
      turns).own i).returned = some (.ok result)) :
    ∃ handled : List Handled, handled.map Handled.record = records i ∧
      handled.map Handled.outcome = result.outcomes ∧
      (run (Network.step config) (Network.pushing runtime stats clients records)
        turns).eventsOf i = handled.flatMap Handled.calls ∧
      (∀ x ∈ handled, Faithful runtime.config.limits x.record x.calls x.outcome) ∧
      result.recordsSent = UInt64.ofNat (records i).length ∧
      result.recordsAccepted = UInt64.ofNat (result.outcomes.countP IngestOutcome.stored) := by
  obtain ⟨replies, served, h⟩ := (Network.agrees_run config runtime stats
    (fun i => (clients i).limits) (fun i => pushRecords (clients i) (records i))
    (fun i => quits_pushRecords (clients i) (records i)) turns).2 i
  obtain ⟨acked, hpushed⟩ := h.pushed
  obtain ⟨hrequests, hreports⟩ := hpushed.complete result hreturned
  obtain ⟨handled, hrecords, houtcomes, hcalls, hfaithful⟩ :=
    exists_handled hrequests hpushed.acknowledged hreports.outcomes
  refine ⟨handled, hrecords, houtcomes, hpushed.called.trans hcalls, hfaithful, ?_,
    hreports.accepted⟩
  have hlength := congrArg List.length hrequests
  rw [List.length_map, List.length_map] at hlength
  rw [hreports.sent, List.length_map, hlength]

/-- The turns of one exchange: nothing fails, and each read takes all there is. -/
def exchangeTurns : List (Turn Unit SessionAction ServerShared) :=
  let world : Surroundings :=
    { nowWallClock := fun _ => Timestamp.zero, sendAll := fun _ _ => .ok () }
  [.party () (.clientSends none), .party () (.serverReceives (.ok 4096) world 0),
    .party () (.serverServes world 0), .party () (.serverServes world 0),
    .party () (.clientReceives (.ok 4096))]

/-- What a client has returned that pushed a heartbeat to a new server, in three exchanges. -/
def heartbeatPushed : Option (Result IngestClientResult) :=
  ((run (Network.step {})
    (Network.pushing (Runtime.initial {}) {} (fun _ : Unit => {})
      fun _ => [EvidenceRecord.heartbeat 1])
    (exchangeTurns ++ exchangeTurns ++ exchangeTurns)).own ()).returned

/-- The heartbeat is accepted, and the client reports it. -/
theorem heartbeatPushed_reported : ∃ result, heartbeatPushed = some (.ok result) ∧
    result.recordsAccepted = 1 ∧ ∃ handled : List Handled,
      handled.map Handled.record = [EvidenceRecord.heartbeat 1] ∧
        handled.map Handled.outcome = result.outcomes ∧
        ∀ x ∈ handled, Faithful {} x.record x.calls x.outcome := by
  obtain ⟨result, hreturned, haccepted⟩ : ∃ result, heartbeatPushed = some (.ok result) ∧
      result.recordsAccepted = 1 := by
    have hrun : (heartbeatPushed.bind Except.toOption).any (fun result =>
        result.recordsAccepted == 1) = true := by decide +kernel
    rw [Option.any_eq_true] at hrun
    obtain ⟨result, hresult, haccepted⟩ := hrun
    obtain ⟨returned, hreturned, hok⟩ := Option.bind_eq_some_iff.mp hresult
    cases returned with
    | error e => cases hok
    | ok found =>
        cases hok
        exact ⟨result, hreturned, eq_of_beq haccepted⟩
  obtain ⟨handled, hrecords, houtcomes, -, hfaithful, -⟩ := pushes_report {}
    (Runtime.initial {}) {} (fun _ => {}) (fun _ => [EvidenceRecord.heartbeat 1])
    (exchangeTurns ++ exchangeTurns ++ exchangeTurns) () result hreturned
  exact ⟨result, hreturned, haccepted, handled, hrecords, houtcomes, hfaithful⟩

end CongestionObservatory
