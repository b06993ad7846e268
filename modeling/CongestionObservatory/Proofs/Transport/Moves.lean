import CongestionObservatory.Proofs.Transport.Handling

/-!
# `CongestionObservatory.Proofs.Transport.Moves`: what one step of a session does

`Session.Moves` are the nine things a step of a session can do. `act_moves` says that there are no
others, and every invariant of a session is proved from them.
-/

set_option autoImplicit false

namespace CongestionObservatory

open Lib FrameDecoder

/-- The decoder of a server thread that is not done. -/
def ServerThread.decoder : ServerThread → Option FrameDecoder
  | .receiving d => some d
  | .serving d => some d
  | .ended _ => none

/-- A decoder that accepts bytes keeps them. -/
theorem FrameDecoder.feed_ok {d d' : FrameDecoder} {data : Text} (h : d.feed data = (.ok (), d')) :
    d' = { d with buffer := d.buffer ++ data } := by
  unfold feed at h
  split at h
  · cases h
  · split at h
    · cases h
    · exact (congrArg Prod.snd h).symm

namespace Session

variable {α : Type}

/-- What a step of a session does, and the calls of the runtime it makes. The server has the given
limits. -/
inductive Moves (limits : Limits) (s : Session α) : Session α → List RuntimeEvent → Prop where
  | stays : Moves limits s s []
  /-- The client sends a request and waits. -/
  | sends (request : Request) (rest : Result Text → Client α)
      (hclient : s.client = .running (.call request rest))
      (hfits : request.payload.length + 8 ≤ s.limits.frameBytes.toNat) :
      Moves limits s
        { s with client := .waiting request rest { limits := s.limits }
                 toServer := s.toServer ++ request.frame.wire } []
  /-- A request is not sent, or only a part of it. -/
  | tears (request : Request) (rest : Result Text → Client α)
      (hclient : s.client = .running (.call request rest)) (bytes : Text) (e : Error)
      (hbytes : Begins request.frame [] bytes) :
      Moves limits s
        { s with client := .running (rest (.error e)), toServer := s.toServer ++ bytes } []
  /-- The client receives a part of a reply. -/
  | reads (request : Request) (rest : Result Text → Client α) (d d' : FrameDecoder)
      (hclient : s.client = .waiting request rest d) (toClient : Text)
      (hshrinks : toClient.length < s.toClient.length) (hd : Holds s.limits d' d'.buffer)
      (hwaits : scan s.limits d'.buffer = .ok none)
      (hbytes : d'.buffer ++ toClient = d.buffer ++ s.toClient) :
      Moves limits s { s with client := .waiting request rest d', toClient := toClient } []
  /-- The client has its reply. -/
  | gets (request : Request) (rest : Result Text → Client α) (d : FrameDecoder)
      (hclient : s.client = .waiting request rest d) (toClient buffer dropped : Text) (frame : Frame)
      (hbytes : buffer ++ toClient = d.buffer ++ s.toClient)
      (hframe : scan s.limits buffer = .ok (some (frame, dropped)))
      (htype : frame.type = request.expected) (herror : frame.type ≠ .error) :
      Moves limits s
        { s with client := .running (rest (.ok frame.payload)), toClient := toClient } []
  /-- The client gives up. -/
  | loses (request : Request) (rest : Result Text → Client α) (d : FrameDecoder)
      (hclient : s.client = .waiting request rest d) (toClient : Text) (e : Error) :
      Moves limits s { s with client := .running (rest (.error e)), toClient := toClient } []
  /-- The server takes bytes off the stream, or waits for more. -/
  | hears (d d' : FrameDecoder) (server : ServerThread) (toServer : Text)
      (hserver : s.server.decoder = some d) (hserver' : server.decoder = some d')
      (hshrinks : toServer.length < s.toServer.length ∨
        toServer = s.toServer ∧ s.server = .serving d ∧ server = .receiving d')
      (hd : Holds limits d' d'.buffer)
      (hwaits : server = .receiving d' → scan limits d'.buffer = .ok none)
      (hbytes : d'.buffer ++ toServer = d.buffer ++ s.toServer) :
      Moves limits s { s with server := server, toServer := toServer } []
  /-- The server ends, with a goodbye or without, or with an error frame where it does not
  understand what it received. -/
  | ends (d : FrameDecoder) (hserver : s.server.decoder = some d) (status : Status) (farewell : Frame)
      (bytes toServer : Text) (greeted : Bool) (log : List ServerEffect)
      (hbytes : Begins farewell [] bytes)
      (hfarewell : farewell = byeFrame ∨ farewell.type = .error ∧ d.buffer ++ s.toServer ≠ []) :
      Moves limits s
        { s with server := .ended status, toServer := toServer, toClient := s.toClient ++ bytes
                 greeted := greeted, log := log } []
  /-- The server answers a frame. Where it goes on, it sent all of the reply. -/
  | answers (d : FrameDecoder) (hserver : s.server.decoder = some d) (frame : Frame) (rest : Text)
      (hframe : scan limits d.buffer = .ok (some (frame, rest)))
      (calls : List RuntimeEvent) (reply : Frame)
      (hanswered : Answered limits frame.type frame.payload calls reply)
      (server : ServerThread) (bytes : Text) (greeted : Bool) (log : List ServerEffect)
      (hbytes : Begins reply [] bytes)
      (hgoes : ∀ d', server.decoder = some d' → server = .serving d' ∧ Holds limits d' rest ∧
        bytes = reply.wire ∧ reply.type ≠ .error) :
      Moves limits s
        { s with server := server, toClient := s.toClient ++ bytes, greeted := greeted, log := log }
        calls

/-! ### The client -/

/-- The reply of a frame. -/
theorem replyOf_cases (limits : Limits) (expected : FrameType) (frame : Frame) :
    (∃ e, replyOf limits expected frame = .error e) ∨
      replyOf limits expected frame = .ok frame.payload ∧ frame.type = expected ∧
        frame.type ≠ .error := by
  unfold replyOf
  split
  · exact Or.inl ⟨_, rfl⟩
  · next herror =>
      split
      · exact Or.inl ⟨_, rfl⟩
      · next htype => exact Or.inr ⟨rfl, not_not.mp htype, herror⟩

/-- What a client that looks at its decoder finds. -/
theorem lookForReply_cases {limits : Limits} {expected : FrameType} {d : FrameDecoder}
    (hd : Holds limits d d.buffer) :
    (lookForReply limits expected d = none ∧ scan limits d.buffer = .ok none) ∨
      (∃ e, lookForReply limits expected d = some (.error e)) ∨
      ∃ frame dropped, lookForReply limits expected d = some (.ok frame.payload) ∧
        scan limits d.buffer = .ok (some (frame, dropped)) ∧ frame.type = expected ∧
        frame.type ≠ .error := by
  obtain ⟨hidle, rfl, -⟩ := hd
  unfold lookForReply
  cases hscan : scan d.limits d.buffer with
  | error e =>
      obtain ⟨current, hnext⟩ := next_of_scan_error hidle hscan
      rw [hnext]
      exact Or.inr (Or.inl ⟨e, rfl⟩)
  | ok found =>
      rcases found with _ | ⟨frame, dropped⟩
      · rw [next_of_scan_none hidle hscan]
        exact Or.inl ⟨rfl, rfl⟩
      · obtain ⟨d', hnext, -⟩ := next_of_scan_some hidle hscan
        rw [hnext]
        rcases replyOf_cases d.limits expected frame with ⟨e, he⟩ | ⟨hok, htype, herror⟩
        · exact Or.inr (Or.inl ⟨e, congrArg some he⟩)
        · exact Or.inr (Or.inr ⟨frame, dropped, congrArg some hok, rfl, htype, herror⟩)

variable {limits : Limits} {s : Session α}

theorem takeBytes_ok {d d' : FrameDecoder} {data : Text} (h : takeBytes d (.ok data) = .ok d') :
    data ≠ [] ∧ d' = { d with buffer := d.buffer ++ data } := by
  unfold takeBytes at h
  dsimp only at h
  split at h
  · cases h
  · next hdata =>
      split at h
      · cases h
      · next d'' hfeed =>
          cases h
          exact ⟨hdata, feed_ok hfeed⟩

/-- A part that is taken off the stream makes it shorter. -/
theorem length_drop_lt {n : Nat} {stream : Text} (h : stream.take n ≠ []) :
    (stream.drop n).length < stream.length := by
  have hsum := congrArg List.length (List.take_append_drop n stream)
  rw [List.length_append] at hsum
  have hpos := List.length_pos_iff.mpr h
  omega

/-- The client looks at its decoder. -/
theorem await_moves {request : Request} {rest : Result Text → Client α} {d d' : FrameDecoder}
    (hclient : s.client = .waiting request rest d) {toClient : Text}
    (hshrinks : toClient.length < s.toClient.length) (hd : Holds s.limits d' d'.buffer)
    (hbytes : d'.buffer ++ toClient = d.buffer ++ s.toClient) :
    Moves limits s (await { s with toClient := toClient } request rest d') [] := by
  unfold await
  rcases @lookForReply_cases s.limits request.expected d' hd with
    ⟨hnone, hwaits⟩ | ⟨e, herror⟩ | ⟨frame, dropped, hok, hscan, htype, herror⟩
  · simp only [hnone]
    exact .reads request rest d d' hclient toClient hshrinks hd hwaits hbytes
  · simp only [herror]
    exact .loses request rest d hclient toClient e
  · simp only [hok]
    exact .gets request rest d hclient toClient d'.buffer dropped frame hbytes hscan htype herror

theorem clientReceives_moves (received : Result Nat)
    (hholds : ∀ request rest d, s.client = .waiting request rest d → Holds s.limits d d.buffer) :
    Moves limits s (s.clientReceives received) [] := by
  unfold clientReceives
  split
  · next request rest d hclient =>
      obtain ⟨hidle, hlimits, -⟩ := hholds request rest d hclient
      cases received with
      | error e => exact .loses request rest d hclient s.toClient e
      | ok n =>
          dsimp only [Except.map, Except.toOption, Option.getD]
          split
          · next e _ => exact .loses request rest d hclient (s.toClient.drop n) e
          · next d' htakes =>
              obtain ⟨hdata, rfl⟩ := takeBytes_ok htakes
              refine await_moves hclient (length_drop_lt hdata) ⟨hidle, hlimits, rfl⟩ ?_
              rw [List.append_assoc]
              exact congrArg (d.buffer ++ ·) (List.take_append_drop n s.toClient)
  · exact .stays

theorem clientSends_moves (failure : Option (Nat × Error)) :
    Moves limits s (s.clientSends failure) [] := by
  unfold clientSends
  split
  · next request rest hclient =>
      split
      · next e hencode =>
          have h : Moves limits s _ [] := .tears request rest hclient [] e (.nil _ _)
          rwa [List.append_nil] at h
      · next bytes sent e hencode =>
          obtain ⟨hfits, rfl⟩ := encodeFrame_eq_ok.mp hencode
          refine .tears request rest hclient _ e (Or.inr ⟨?_, ?_⟩)
          · exact Nat.lt_of_le_of_lt hfits (frameBytes_lt _)
          · rw [List.append_nil]
            exact List.take_prefix sent _
      · next bytes hencode =>
          obtain ⟨hfits, rfl⟩ := encodeFrame_eq_ok.mp hencode
          have hnone : lookForReply s.limits request.expected { limits := s.limits } = none := rfl
          unfold await
          simp only [hnone]
          exact .sends request rest hclient hfits
  · exact .stays

/-! ### The server -/

variable {config : ServerConfig} {world : Surroundings} {torn : Nat}
  {shared : ServerShared}

/-- The session after an answer of the server. -/
theorem resume_eq (s : Session α) {c c' : Connection} {before extra : List ServerEffect} {reply : Frame}
    {status : Status} (h : Handles c before reply status c') (hruntime : c.runtime = shared.runtime)
    (hlog : c.log = s.log ++ extra) (hsilent : extra.flatMap (sentBytes shared.runtime.config.limits torn) = [])
    (hcalls : extra.filterMap (callOf shared.runtime) = []) (server : ServerThread) :
    s.resume shared torn server c'
      = ({ s with
            server := server
            toClient := s.toClient
              ++ sentBytes shared.runtime.config.limits torn (.sent reply status)
            greeted := c'.greeted
            log := c'.log },
          { runtime := c'.runtime, stats := c'.stats },
          before.filterMap (callOf c.runtime)) := by
  have heffects : c'.log.drop s.log.length = extra ++ (before ++ [.sent reply status]) := by
    rw [h.log, hlog, List.append_assoc, List.drop_left]
  have hlast : [ServerEffect.sent reply status].filterMap (callOf shared.runtime) = [] := rfl
  unfold resume
  simp only [heffects, List.flatMap_append, List.filterMap_append, hsilent, hcalls, h.silent, hlast,
    List.nil_append, List.append_nil, List.flatMap_singleton, hruntime]

/-- The server ends with an error frame or a goodbye. -/
theorem ends_moves {d : FrameDecoder} (hserver : s.server.decoder = some d) {farewell : Frame}
    {status : Status} {c : Connection}
    (h : Handles (s.connection shared) [] farewell status c) (ending : Status) (toServer : Text)
    (hfarewell : farewell = byeFrame ∨ farewell.type = .error ∧ d.buffer ++ s.toServer ≠ []) :
    Moves limits s (resume { s with toServer := toServer } shared torn (.ended ending) c).1
      (resume { s with toServer := toServer } shared torn (.ended ending) c).2.2 := by
  rw [resume_eq { s with toServer := toServer } h rfl (List.append_nil _).symm rfl rfl]
  exact .ends d hserver ending farewell _ toServer _ _ (begins_sentBytes _ _ _ _) hfarewell

/-- The server ends without a word. -/
theorem silent_moves {d : FrameDecoder} (hserver : s.server.decoder = some d) (ending : Status)
    (toServer : Text) :
    Moves limits s { s with server := .ended ending, toServer := toServer } [] := by
  have h : Moves limits s _ [] := .ends d hserver ending byeFrame [] toServer s.greeted s.log
    (.nil _ _) (Or.inl rfl)
  rwa [List.append_nil] at h

theorem serverStops_moves :
    Moves limits s (s.serverStops shared world torn).1 (s.serverStops shared world torn).2.2 := by
  unfold serverStops
  split
  · next d hserver =>
      have hdecoder : s.server.decoder = some d := by rw [hserver]; rfl
      have h := @IngestServer.handles_sendFrame world (s.connection shared) .bye []
      rcases hsend : (s.connection shared).sendFrame world .bye [] with ⟨status, c⟩
      rw [hsend] at h
      exact ends_moves hdecoder h status s.toServer (Or.inl rfl)
  · exact .stays

theorem serverReceives_moves (received : Result Nat)
    (hholds : ∀ d, s.server.decoder = some d → Holds limits d d.buffer) :
    Moves limits s (s.serverReceives shared received world torn).1
      (s.serverReceives shared received world torn).2.2 := by
  unfold serverReceives
  split
  · next d e hserver => exact @silent_moves α limits s d (by rw [hserver]; rfl) _ s.toServer
  · next d n hserver =>
      have hdecoder : s.server.decoder = some d := by rw [hserver]; rfl
      obtain ⟨hidle, hlimits, -⟩ := hholds d hdecoder
      dsimp only
      split
      · exact silent_moves hdecoder _ _
      · next hdata =>
          split
          · next e d' hfeed =>
              obtain ⟨status, h⟩ := @IngestServer.handles_fail world (s.connection shared)
                e.code "frame rejected" e.describe
              have hunheard : d.buffer ++ s.toServer ≠ [] := fun hnil =>
                hdata (by rw [(List.append_eq_nil_iff.mp hnil).2, List.take_nil])
              have hconnection : connection { s with toServer := s.toServer.drop n } shared
                  = s.connection shared := rfl
              rw [hconnection]
              rcases hfail : (s.connection shared).fail world e.code "frame rejected" e.describe
                with ⟨ending, c⟩
              rw [hfail] at h
              exact ends_moves hdecoder h ending _ (Or.inr ⟨rfl, hunheard⟩)
          · next d' hfeed =>
              rw [feed_ok hfeed]
              refine .hears d _ _ _ hdecoder rfl (Or.inl (length_drop_lt hdata))
                ⟨hidle, hlimits, rfl⟩ (fun h => by cases h) ?_
              rw [List.append_assoc]
              exact congrArg (d.buffer ++ ·) (List.take_append_drop n s.toServer)
  · exact .stays

theorem serverServes_moves (hlimits : shared.runtime.config.limits = limits)
    (hholds : ∀ d, s.server.decoder = some d → Holds limits d d.buffer) :
    Moves limits s (s.serverServes config shared world torn).1
      (s.serverServes config shared world torn).2.2 := by
  unfold serverServes
  split
  · next d hserver =>
      have hdecoder : s.server.decoder = some d := by rw [hserver]; rfl
      have hd := hholds d hdecoder
      cases hscan : scan limits d.buffer with
      | error e =>
          obtain ⟨current, hnext⟩ := next_of_scan_error hd.idle (by rw [hd.limits_eq]; exact hscan)
          obtain ⟨status, h⟩ := @IngestServer.handles_fail world (s.connection shared)
            e.code "frame decode failed" e.describe
          have hunheard : d.buffer ++ s.toServer ≠ [] := fun hnil => by
            rw [(List.append_eq_nil_iff.mp hnil).1, scan_nil] at hscan
            cases hscan
          rw [hnext]
          dsimp only
          rcases hfail : (s.connection shared).fail world e.code "frame decode failed" e.describe
            with ⟨ending, c⟩
          rw [hfail] at h
          exact ends_moves hdecoder h ending s.toServer (Or.inr ⟨rfl, hunheard⟩)
      | ok found =>
          rcases found with _ | ⟨frame, rest⟩
          · rw [next_of_scan_none hd.idle (by rw [hd.limits_eq]; exact hscan)]
            exact .hears d d _ s.toServer hdecoder rfl (Or.inr ⟨rfl, hserver, rfl⟩) hd
              (fun _ => hscan) rfl
          · obtain ⟨d', hnext, hconsume⟩ :=
              next_of_scan_some hd.idle (by rw [hd.limits_eq]; exact hscan)
            have hconsumed : Holds limits d'.consume rest := by
              rw [hconsume]
              exact ⟨hd.idle, hd.limits_eq, rfl⟩
            obtain ⟨before, reply, status, h, hanswered, hgoes⟩ :=
              @IngestServer.handleFrame_handles config world
                ((s.connection shared).receive frame) frame
            have hreply : Answered limits frame.type frame.payload
                (before.filterMap (callOf shared.runtime)) reply := hlimits ▸ hanswered
            rw [hnext]
            dsimp only
            rcases hhandle : IngestServer.handleFrame config world
              ((s.connection shared).receive frame) frame with ⟨ending, c⟩
            rw [hhandle] at h hgoes
            have hresume := fun server => @resume_eq α torn shared s _ c before
              [.received frame] reply status h rfl rfl rfl rfl server
            cases ending with
            | some ending =>
                dsimp only
                rw [hresume]
                exact .answers d hdecoder frame rest hscan _ reply hreply _ _ _ _
                  (begins_sentBytes _ _ _ _) (fun _ hnone => by cases hnone)
            | none =>
                obtain ⟨hok, herror⟩ := hgoes rfl
                dsimp only
                rw [hresume, hok]
                refine .answers d hdecoder frame rest hscan _ reply hreply _ _ _ _
                  (begins_sentBytes _ _ _ _) (fun d'' hd'' => ?_)
                cases hd''
                exact ⟨rfl, hconsumed, sentBytes_ok (h.fits hok) torn, herror⟩
  · exact .stays

/-- **What one step of a session does.** -/
theorem act_moves (action : SessionAction) (hlimits : shared.runtime.config.limits = limits)
    (hclient : ∀ request rest d, s.client = .waiting request rest d → Holds s.limits d d.buffer)
    (hserver : ∀ d, s.server.decoder = some d → Holds limits d d.buffer) :
    Moves limits s (s.act config shared action).1 (s.act config shared action).2.2 := by
  cases action with
  | clientSends failure => exact clientSends_moves failure
  | clientReceives received => exact clientReceives_moves received hclient
  | serverReceives received world torn =>
      rw [act]
      exact serverReceives_moves received hserver
  | serverServes world torn =>
      rw [act]
      exact serverServes_moves hlimits hserver
  | serverStops world torn =>
      rw [act]
      exact serverStops_moves

/-! ### The configuration -/

theorem resume_config (s : Session α) {c c' : Connection} {before : List ServerEffect} {reply : Frame}
    {status : Status} (h : Handles c before reply status c') (hruntime : c.runtime = shared.runtime)
    (server : ServerThread) :
    (s.resume shared torn server c').2.1.runtime.config = shared.runtime.config := by
  rw [← hruntime]
  exact h.config

/-- No step of a session changes the configuration of the runtime. -/
theorem act_config (s : Session α) (shared : ServerShared) (action : SessionAction) :
    (s.act config shared action).2.1.runtime.config = shared.runtime.config := by
  have hfail : ∀ (s : Session α) torn server world (e : Error) message ending c,
      (s.connection shared).fail world e.code message e.describe = (ending, c) →
      (s.resume shared torn server c).2.1.runtime.config = shared.runtime.config := by
    intro s torn server world e message ending c hresult
    obtain ⟨status, h⟩ := @IngestServer.handles_fail world (s.connection shared) e.code message
      e.describe
    rw [hresult] at h
    exact resume_config s h rfl server
  cases action with
  | clientSends failure => rfl
  | clientReceives received => rfl
  | serverReceives received world torn =>
      rw [act]
      unfold serverReceives
      split
      · rfl
      · next d n hserver =>
          dsimp only
          split
          · rfl
          · split
            · next e d' hfeed =>
                rcases hresult : connection { s with toServer := s.toServer.drop n } shared |>.fail
                  world e.code "frame rejected" e.describe with ⟨ending, c⟩
                exact hfail _ _ _ _ _ _ _ _ hresult
            · rfl
      · rfl
  | serverServes world torn =>
      rw [act]
      unfold serverServes
      split
      · next d hserver =>
          split
          · next e d' hnext =>
              rcases hresult : (s.connection shared).fail world e.code "frame decode failed"
                e.describe with ⟨ending, c⟩
              exact hfail _ _ _ _ _ _ _ _ hresult
          · rfl
          · next frame d' hnext =>
              obtain ⟨before, reply, status, h, -⟩ := @IngestServer.handleFrame_handles config world
                ((s.connection shared).receive frame) frame
              rcases hhandle : IngestServer.handleFrame config world
                ((s.connection shared).receive frame) frame with ⟨ending, c⟩
              rw [hhandle] at h
              cases ending with
              | none => exact resume_config s h rfl _
              | some ending => exact resume_config s h rfl _
      · rfl
  | serverStops world torn =>
      rw [act]
      unfold serverStops
      split
      · have h := @IngestServer.handles_sendFrame world (s.connection shared) .bye []
        rcases hsend : (s.connection shared).sendFrame world .bye [] with ⟨status, c⟩
        rw [hsend] at h
        exact resume_config s h rfl _
      · rfl

end Session

end CongestionObservatory
