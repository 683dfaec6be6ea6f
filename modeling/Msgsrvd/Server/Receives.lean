/-
The moves of the events: what arrives on a connection, what is sent on one, and the
stream a follower applies.
-/

import Msgsrvd.Server.Dispatches

namespace Msgsrvd

open Bytestring

/-! ### The order of the frames of a connection -/

/-- An opening frame comes first on a connection, and only there; after anything but a
frame comes nothing but the end. -/
def Opens : Bool → List ConnAction → Prop
  | _, [] => True
  | opened, .frame h _ :: rest => opens h.op = !opened ∧ Opens true rest
  | _, _ :: rest => ∀ action ∈ rest, action = .close

theorem Opens.closes {opened : Bool} {actions : List ConnAction}
    (ends : ∀ action ∈ actions, action = .close) : Opens opened actions := by
  cases actions with
  | nil => trivial
  | cons action rest =>
      rw [ends action (List.mem_cons_self ..)]
      exact fun later inRest => ends later (List.mem_cons_of_mem _ inRest)

theorem emitFatal_opens (opened : Bool) (room code echoSeq : Nat) :
    Opens opened (emitFatal room code echoSeq) := by
  unfold emitFatal
  cases room with
  | zero => trivial
  | succ room =>
      rw [List.take_succ_cons]
      intro action present
      exact List.mem_singleton.mp (List.mem_of_mem_take present)

/-- What feeding leaves of a client's connection. -/
structure Feeds (c c' : Conn) (actions : List ConnAction) : Prop where
  mode : c'.mode = c.mode
  order : Opens c.opened actions
  begun : actions ≠ [] → c'.opened = true ∨ c'.closed = true
  idle : actions = [] → c'.opened = c.opened ∧ c'.closed = c.closed

theorem connFeedFrom_feeds (room : Nat) (c : Conn) (cursor : Nat) (client : c.mode = .client) :
    Feeds c (connFeedFrom room c cursor).2 (connFeedFrom room c cursor).1 := by
  have stuck : Feeds c { c with bufOff := cursor } [] :=
    ⟨rfl, trivial, fun some => absurd rfl some, fun _ => ⟨rfl, rfl⟩⟩
  induction room generalizing c cursor with
  | zero => exact stuck
  | succ room ih =>
      unfold connFeedFrom
      split
      · exact stuck
      · simp only
        cases fault : headerFault c.bufCap c.mode c.opened (msgHeaderAt (c.buf.drop cursor)) with
        | some found =>
            obtain ⟨code, echoSeq⟩ := found
            refine ⟨rfl, emitFatal_opens _ _ _ _, fun _ => Or.inr rfl, fun none => ?_⟩
            change emitFatal (room + 1) code echoSeq = [] at none
            unfold emitFatal at none
            rw [List.take_succ_cons] at none
            cases none
        | none =>
            simp only
            split
            · exact stuck
            · have order : opens (msgHeaderAt (c.buf.drop cursor)).op = !c.opened := by
                unfold headerFault at fault
                repeat' split at fault
                all_goals try cases fault
                rename_i differ
                rw [not_and] at differ
                cases given : c.opened with
                | true =>
                    cases found : opens (msgHeaderAt (c.buf.drop cursor)).op with
                    | true => exact absurd (found.trans given.symm) (differ client)
                    | false => rfl
                | false =>
                    cases found : opens (msgHeaderAt (c.buf.drop cursor)).op with
                    | true => rfl
                    | false => exact absurd (found.trans given.symm) (differ client)
              have opened : (c.opened || opens (msgHeaderAt (c.buf.drop cursor)).op) = true := by
                rw [order]
                cases c.opened <;> rfl
              have later := ih { c with
                  opened := c.opened || opens (msgHeaderAt (c.buf.drop cursor)).op }
                (cursor + (MSG_HEADER_SIZE + (msgHeaderAt (c.buf.drop cursor)).payloadLen)) client
                ⟨rfl, trivial, fun some => absurd rfl some, fun _ => ⟨rfl, rfl⟩⟩
              rw [opened] at later ⊢
              refine ⟨later.mode, ⟨order, later.order⟩, fun _ => ?_, fun none => by cases none⟩
              by_cases last : (connFeedFrom room { c with opened := true }
                  (cursor + (MSG_HEADER_SIZE +
                    (msgHeaderAt (c.buf.drop cursor)).payloadLen))).1 = []
              · exact Or.inl (later.idle last).1
              · exact later.begun last

theorem connFeed_feeds (c : Conn) (outCap : Nat) (client : c.mode = .client) :
    Feeds c (connFeed c outCap).2 (connFeed c outCap).1 := by
  unfold connFeed
  split
  · exact ⟨rfl, trivial, fun some => absurd rfl some, fun _ => ⟨rfl, rfl⟩⟩
  · exact connFeedFrom_feeds outCap c c.bufOff client

variable {phase : Phase} {lit : Nat → Bool} {l l' l'' : Loop} {slot : Nat}

/-! ### Runs of moves -/

/-- A run of moves, whatever it does to the framing. -/
structure Makes (phase : Phase) (lit : Nat → Bool) (l l' : Loop) : Prop where
  sound : l'.Sound lit
  moves : Moves (l.desk phase lit) (l'.desk phase lit)

theorem Makes.refl (sound : l.Sound lit) : Makes phase lit l l :=
  ⟨sound, Relation.ReflTransGen.refl⟩

theorem Makes.trans (left : Makes phase lit l l') (right : Makes phase lit l' l'') :
    Makes phase lit l l'' :=
  ⟨right.sound, left.moves.trans right.moves⟩

theorem Serves.makes (serves : Serves phase lit l l') : Makes phase lit l l' :=
  ⟨serves.sound, serves.moves⟩

theorem note_makes (sound : l.Sound lit) {note : Note}
    (move : Move (l.desk phase lit) ((l.desk phase lit).note note)) :
    Makes phase lit l (l.note note) :=
  (note_serves sound move).makes

/-- A step that every element of a list takes. -/
theorem foldl_makes {α : Type} {f : Loop → α → Loop} (list : List α)
    (each : ∀ l, l.Sound lit → ∀ x ∈ list, Makes phase lit l (f l x)) (sound : l.Sound lit) :
    Makes phase lit l (list.foldl f l) := by
  induction list generalizing l with
  | nil => exact .refl sound
  | cons x rest ih =>
      have first := each l sound x (List.mem_cons_self ..)
      exact first.trans (ih (fun l sound y inRest => each l sound y (List.mem_cons_of_mem _ inRest))
        first.sound)

/-- What shows on the desk stays as it was, and the connection is sound as it is. -/
theorem setConn_makes (sound : l.Sound lit) {c : LoopConn} (fits : c.Sound (lit slot))
    (used : (l.conns slot).inUse = true) (party : c.party = (l.conns slot).party) :
    Makes phase lit l (l.setConn slot c) :=
  ⟨sound.setConn fits (fun _ => sound.inside slot used), by
    rw [desk_setConn_same l party]
    exact Relation.ReflTransGen.refl⟩

/-- A connection in use whose framing moves on. -/
theorem LoopConn.Sound.reframed {c : LoopConn} {lit : Bool} (sound : c.Sound lit)
    (used : c.inUse = true) {conn : Conn} (mode : conn.mode = .client)
    (fresh : conn.opened = false → conn.closed = false →
      c.conn.opened = false ∧ c.conn.closed = false) :
    ({ c with conn := conn } : LoopConn).Sound lit where
  empty := by
    intro free
    rw [show ({ c with conn := conn } : LoopConn).inUse = c.inUse from rfl, used] at free
    cases free
  client := fun _ => mode
  fresh := by
    intro _used unopened unclosed
    obtain ⟨before, open'⟩ := fresh unopened unclosed
    obtain ⟨shape, unlit⟩ := sound.fresh used before open'
    refine ⟨?_, unlit⟩
    rw [shape]

theorem LoopConn.Sound.closing {c : LoopConn} {lit : Bool} (sound : c.Sound lit)
    (used : c.inUse = true) : ({ c with closing := true } : LoopConn).Sound lit where
  empty := by
    intro free
    rw [show ({ c with closing := true } : LoopConn).inUse = c.inUse from rfl, used] at free
    cases free
  client := fun _ => sound.client used
  fresh := by
    intro _used unopened unclosed
    obtain ⟨shape, unlit⟩ := sound.fresh used unopened unclosed
    refine ⟨?_, unlit⟩
    rw [shape]

theorem close_makes (sound : l.Sound lit) (used : (l.conns slot).inUse = true) :
    Makes phase lit l (l.close slot) :=
  setConn_makes sound ((sound.conns slot).closing used) used rfl

/-- A connection that has anything to send has had its opening frame handled. -/
theorem LoopConn.Sound.busy {c : LoopConn} {lit : Bool} (sound : c.Sound lit)
    (used : c.inUse = true) (some' : c.sendBuf ≠ []) : c.Busy where
  used := used
  client := sound.client used
  begun := by
    cases opened : c.conn.opened with
    | true => exact Or.inl rfl
    | false =>
        cases closed : c.conn.closed with
        | true => exact Or.inr rfl
        | false =>
            obtain ⟨shape, _unlit⟩ := sound.fresh used opened closed
            rw [shape] at some'
            exact absurd rfl some'

/-! ### Frames -/

theorem handleFrame_serves (sound : l.Sound lit) (busy : (l.conns slot).Busy) {h : MsgHeader}
    (payload : Bytes) (blank : opens h.op = true → l.Blank slot lit) :
    Serves .dispatching lit l (handleFrame l slot h payload) := by
  unfold handleFrame
  split
  · rename_i hello
    exact handleHello_serves sound busy (blank (by rw [hello]; rfl)) h payload
  · split
    · exact handleWrite_serves sound busy h payload
    · split
      · exact replyFrame_serves sound busy ⟨fun isAck => (by cases isAck),
          fun isNotify => (by cases isNotify), fun isData => (by cases isData)⟩
      · split
        · exact handleReplStart_serves sound busy h
        · split
          · exact handleReplAck_serves sound slot h
          · split
            · exact handleSubscribe_serves sound busy h payload
            · split
              · exact handleRead_serves sound busy h payload
              · split
                · exact replyErr_serves sound busy _ _
                · exact replyErr_close_serves sound busy _ _

theorem onAction_serves (sound : l.Sound lit) (busy : (l.conns slot).Busy) {action : ConnAction}
    (blank : ∀ h payload, action = .frame h payload → opens h.op = true → l.Blank slot lit) :
    Serves .dispatching lit l (onAction slot l action) := by
  cases action with
  | frame h payload => exact handleFrame_serves sound busy _ (blank h payload rfl)
  | replyErr code sequence => exact replyErr_serves sound busy _ _
  | close => exact close_serves sound busy

theorem onActions_serves {actions : List ConnAction} (order : Opens true actions)
    (sound : l.Sound lit) (busy : (l.conns slot).Busy) :
    Serves .dispatching lit l (actions.foldl (onAction slot) l) := by
  induction actions generalizing l with
  | nil => exact .refl sound
  | cons action rest ih =>
      have later : Opens true rest ∧ ∀ h payload, action = .frame h payload →
          opens h.op = false := by
        cases action with
        | frame h payload =>
            refine ⟨order.2, ?_⟩
            intro h' payload' same
            cases same
            exact order.1
        | replyErr code sequence => exact ⟨.closes order, fun _ _ other => by cases other⟩
        | close => exact ⟨.closes order, fun _ _ other => by cases other⟩
      have first : Serves .dispatching lit l (onAction slot l action) :=
        onAction_serves sound busy (fun h payload same begins => by
          rw [later.2 h payload same] at begins
          cases begins)
      exact first.trans (ih later.1 first.sound (first.busy busy))

/-- The first actions of a connection may open it. -/
theorem onActions_first {opened : Bool} {actions : List ConnAction} (order : Opens opened actions)
    (sound : l.Sound lit) (busy : (l.conns slot).Busy)
    (blank : opened = false → l.Blank slot lit) :
    Serves .dispatching lit l (actions.foldl (onAction slot) l) := by
  cases opened with
  | true => exact onActions_serves order sound busy
  | false =>
      cases actions with
      | nil => exact .refl sound
      | cons action rest =>
          have first : Serves .dispatching lit l (onAction slot l action) :=
            onAction_serves sound busy (fun _ _ _ _ => blank rfl)
          have later : Opens true rest := by
            cases action with
            | frame h payload => exact order.2
            | replyErr code sequence => exact .closes order
            | close => exact .closes order
          exact first.trans (onActions_serves later first.sound (first.busy busy))

/-! ### What arrives -/

theorem onRecvLoop_makes (fuel : Nat) (sound : l.Sound lit)
    (used : (l.conns slot).inUse = true) : Makes .dispatching lit l (onRecvLoop fuel l slot) := by
  induction fuel generalizing l with
  | zero => exact .refl sound
  | succ fuel ih =>
      unfold onRecvLoop
      simp only
      have fits := sound.conns slot
      have feeds := connFeed_feeds (l.conns slot).conn 8 (fits.client used)
      cases fed : connFeed (l.conns slot).conn 8 with
      | mk actions conn =>
          rw [fed] at feeds
          simp only
          have mode : conn.mode = .client := feeds.mode.trans (fits.client used)
          by_cases none : actions = []
          · rw [if_pos none]
            obtain ⟨opened, closed⟩ := feeds.idle none
            refine setConn_makes sound (fits.reframed used mode ?_) used rfl
            intro unopened unclosed
            exact ⟨opened.symm.trans unopened, closed.symm.trans unclosed⟩
          · rw [if_neg none]
            have busy : ({ l.conns slot with conn := conn } : LoopConn).Busy :=
              ⟨used, mode, feeds.begun none⟩
            have moved : Makes .dispatching lit l
                (l.setConn slot { l.conns slot with conn := conn }) :=
              setConn_makes sound (busy.sound _) used rfl
            have here : (l.setConn slot { l.conns slot with conn := conn }).conns slot =
                { l.conns slot with conn := conn } := conns_setConn l slot _
            have blank (unopened : (l.conns slot).conn.opened = false) :
                (l.setConn slot { l.conns slot with conn := conn }).Blank slot lit := by
              have open' : (l.conns slot).conn.closed = false := by
                cases closed : (l.conns slot).conn.closed with
                | false => rfl
                | true =>
                    unfold connFeed at fed
                    rw [if_pos (Or.inl closed)] at fed
                    cases fed
                    exact absurd rfl none
              obtain ⟨shape, unlit⟩ := fits.fresh used unopened open'
              refine ⟨?_, unlit⟩
              rw [here, shape]
            have busy1 : ((l.setConn slot { l.conns slot with conn := conn }).conns slot).Busy := by
              rw [here]
              exact busy
            have handled : Serves .dispatching lit _ _ :=
              onActions_first feeds.order moved.sound busy1 blank
            refine moved.trans (handled.makes.trans ?_)
            split
            · exact .refl handled.sound
            · exact ih handled.sound (handled.busy busy1).used

/-- The loop with what the connection has just received in its buffer. -/
theorem heard_makes (sound : l.Sound lit) (used : (l.conns slot).inUse = true) (bytes : Bytes) :
    Makes .dispatching lit l ((l.setConn slot
      { l.conns slot with conn := connRecvCommit (l.conns slot).conn bytes }).note
        (.heard slot bytes)) := by
  have fits := sound.conns slot
  have same (c : Conn) : (connRecvCommit c bytes).mode = c.mode ∧
      (connRecvCommit c bytes).opened = c.opened ∧ (connRecvCommit c bytes).closed = c.closed := by
    unfold connRecvCommit
    split
    · exact ⟨rfl, rfl, rfl⟩
    · exact ⟨rfl, rfl, rfl⟩
  obtain ⟨mode, opened, closed⟩ := same (l.conns slot).conn
  have moved : Makes .dispatching lit l (l.setConn slot
      { l.conns slot with conn := connRecvCommit (l.conns slot).conn bytes }) := by
    refine setConn_makes sound (fits.reframed used (mode.trans (fits.client used)) ?_) used rfl
    intro unopened unclosed
    exact ⟨opened.symm.trans unopened, closed.symm.trans unclosed⟩
  exact moved.trans (note_makes moved.sound (.heard slot bytes))

theorem onRecv_makes (sound : l.Sound lit) (used : (l.conns slot).inUse = true) (bytes : Bytes) :
    Makes .dispatching lit l (onRecv l slot bytes) := by
  have heard := heard_makes sound used bytes
  unfold onRecv
  simp only
  refine heard.trans (onRecvLoop_makes _ heard.sound ?_)
  change ((l.setConn slot _).conns slot).inUse = true
  rw [conns_setConn]
  exact used

theorem doRecv_makes (sound : l.Sound lit) (slot : Nat) (received : Received) :
    Makes .dispatching lit l (doRecv l slot received) := by
  unfold doRecv
  simp only
  by_cases idle : ¬ (l.conns slot).inUse = true ∨ connRecvSpace (l.conns slot).conn = 0
  · rw [if_pos idle]
    exact .refl sound
  · rw [if_neg idle]
    rw [not_or, not_not] at idle
    cases received with
    | again => exact .refl sound
    | failed => exact close_makes sound idle.1
    | data bytes =>
        simp only
        split
        · exact close_makes sound idle.1
        · exact onRecv_makes sound idle.1 bytes

theorem onAccept_makes (sound : l.Sound lit) (accepted : Bool) :
    Makes .dispatching lit l (onAccept l accepted) := by
  unfold onAccept
  cases found : slotAlloc l with
  | none => exact .refl sound
  | some slot =>
      simp only
      split
      · exact .refl sound
      · unfold slotAlloc at found
        have inside : slot < LOOP_MAX_CONNS := List.mem_range.mp (List.mem_of_find?_eq_some found)
        have free : (l.conns slot).inUse = false := by
          have holds := List.find?_some found
          simpa using holds
        obtain ⟨empty, unlit⟩ := (sound.conns slot).empty free
        refine ⟨?_, ?_⟩
        · have fits : ({ slotEmpty with
              inUse := true, conn := connInit LOOP_RECV_CAP .client } : LoopConn).Sound
              (lit slot) :=
            { empty := fun free => by cases free
              client := fun _ => rfl
              fresh := fun _ _ _ => ⟨rfl, unlit⟩ }
          exact { (sound.setConn fits (fun _ => inside)) with }
        · have move := @Move.opened (l.desk .dispatching lit) slot rfl free unlit inside
          apply Relation.ReflTransGen.single
          refine Eq.subst ?_ move
          show _ = (Loop.desk (l.setConn slot { slotEmpty with
            inUse := true, conn := connInit LOOP_RECV_CAP .client }) .dispatching lit).note _
          rw [desk_setConn]
          rfl

/-! ### What is sent -/

theorem connWantOut_serves (sound : l.Sound lit) (busy : (l.conns slot).Busy) (want ctl : Bool) :
    Serves phase lit l (connWantOut l slot want ctl) := by
  unfold connWantOut
  simp only
  split
  · exact .refl sound
  · split
    · exact close_serves sound busy
    · exact serves_setConn_same sound busy ⟨rfl, rfl⟩ rfl

/-- What is left of a buffer is an end of it. -/
theorem sent_serves (sound : l.Sound lit) (busy : (l.conns slot).Busy) {c : LoopConn}
    (same : (l.conns slot).SameFraming c)
    (party : c.party = { (l.conns slot).party with sendBuf := c.sendBuf })
    (left : c.sendBuf <:+ (l.conns slot).sendBuf) : Serves phase lit l (l.setConn slot c) := by
  refine serves_setConn sound busy same ?_
  rw [party]
  exact Relation.ReflTransGen.single (@Move.sent (l.desk phase lit) slot c.sendBuf left)

theorem loopSendDone_serves (sound : l.Sound lit) (busy : (l.conns slot).Busy) (res : Int) :
    Serves phase lit l (loopSendDone l slot res) := by
  unfold loopSendDone
  simp only
  split
  · exact .refl sound
  · split
    · exact sent_serves sound busy ⟨rfl, rfl⟩ rfl (List.nil_suffix)
    · exact sent_serves sound busy ⟨rfl, rfl⟩ rfl (List.drop_suffix _ _)

theorem connSend_serves (sound : l.Sound lit) (busy : (l.conns slot).Busy) (answer : SendAnswer)
    (sends : phase = .arming ∨ (phase = .dispatching ∧ lit slot = true)) :
    Serves phase lit l (connSend l slot answer) := by
  unfold connSend
  simp only
  have noted : Serves phase lit l (l.note (.handed slot (walDurableSeq l.wal)
      (l.conns slot).sendBuf (takenOf answer.res (l.conns slot).sendBuf))) :=
    note_serves sound (@Move.handed (l.desk phase lit) slot _ sends)
  have busy1 := noted.busy busy
  refine noted.trans ?_
  split
  · exact connWantOut_serves noted.sound busy1 _ _
  · have done : Serves phase lit _ _ := loopSendDone_serves noted.sound busy1 answer.res
    exact done.trans (connWantOut_serves done.sound (done.busy busy1) _ _)

theorem doSend_makes (sound : l.Sound lit) (slot : Nat) (answer : SendAnswer)
    (shown : lit slot = true) : Makes .dispatching lit l (doSend l slot answer) := by
  unfold doSend
  simp only
  by_cases used : (l.conns slot).inUse = true
  · rw [if_neg (not_not.mpr used)]
    by_cases nothing : (l.conns slot).sendBuf = []
    · rw [if_pos nothing]
      -- A connection that was reported writable has had its opening frame handled.
      have busy : (l.conns slot).Busy := by
        refine ⟨used, (sound.conns slot).client used, ?_⟩
        cases opened : (l.conns slot).conn.opened with
        | true => exact Or.inl rfl
        | false =>
            cases closed : (l.conns slot).conn.closed with
            | true => exact Or.inr rfl
            | false =>
                obtain ⟨_shape, unlit⟩ := (sound.conns slot).fresh used opened closed
                rw [shown] at unlit
                cases unlit
      exact (connWantOut_serves sound busy _ _).makes
    · rw [if_neg nothing]
      exact (connSend_serves sound ((sound.conns slot).busy used nothing) answer
        (Or.inr ⟨rfl, shown⟩)).makes
  · rw [if_pos used]
    exact .refl sound

/-! ### The follower's stream -/

/-- A step of the stream: nothing but the log, the sessions and the stream moves on. -/
structure Streams (phase : Phase) (lit : Nat → Bool) (l l' : Loop) : Prop where
  makes : Makes phase lit l l'
  follower : l'.isFollower = l.isFollower

theorem Streams.refl (sound : l.Sound lit) : Streams phase lit l l := ⟨.refl sound, rfl⟩

theorem Streams.trans (left : Streams phase lit l l') (right : Streams phase lit l' l'') :
    Streams phase lit l l'' :=
  ⟨left.makes.trans right.makes, right.follower.trans left.follower⟩

theorem follower_stream (following : l.isFollower = true) (stream : LoopStream) :
    l.isFollower = false → stream.fd = false ∧ stream.connecting = false := by
  intro leading
  rw [following] at leading
  cases leading

/-- A follower's stream changes as it is staged for the leader. -/
theorem setStream_streams (sound : l.Sound lit) (following : l.isFollower = true)
    {stream : LoopStream}
    (moves : Moves (l.desk phase lit) { l.desk phase lit with up := stream.sendBuf }) :
    Streams phase lit l { l with stream := stream } where
  makes :=
    { sound := { sound with alone := follower_stream following stream }
      moves := moves }
  follower := rfl

/-- The stream changes and nothing staged on it does. -/
theorem setStream_same (sound : l.Sound lit) (following : l.isFollower = true)
    {stream : LoopStream} (same : stream.sendBuf = l.stream.sendBuf) :
    Streams phase lit l { l with stream := stream } := by
  refine setStream_streams sound following ?_
  rw [same]
  exact Relation.ReflTransGen.refl

theorem closeStream_streams (sound : l.Sound lit) (following : l.isFollower = true) :
    Streams phase lit l l.closeStream := setStream_same sound following rfl

theorem streamFrame_streams (sound : l.Sound lit) (following : l.isFollower = true)
    {op sequence : Nat} (founded : op = MSG_OP_REPL_ACK → sequence ≤ walDurableSeq l.wal) :
    Streams phase lit l (streamFrame l op sequence) := by
  unfold streamFrame
  split
  · exact .refl sound
  · refine ⟨⟨?_, ?_⟩, rfl⟩
    · exact { sound with alone := follower_stream following _ }
    · exact Relation.ReflTransGen.single (@Move.reported (l.desk phase lit)
        ⟨msgHeaderNew op MSG_RECORD_NONE 0 0 0 sequence, []⟩ founded)

theorem onReplDial_streams (sound : l.Sound lit) (following : l.isFollower = true)
    (connected ctl : Bool) : Streams phase lit l (onReplDial l connected ctl) := by
  unfold onReplDial
  simp only
  split
  · exact setStream_same sound following rfl
  · split
    · exact setStream_same sound following rfl
    · have dialed : Streams phase lit l ({ l with
          stream := { l.stream with
            connecting := false
            wantOut := false
            conn := connInit LOOP_REPL_CAP .internal
            sendBuf := []
            closing := false
            acked := walDurableSeq l.wal } }.note .dialed) :=
        ⟨⟨{ sound with alone := follower_stream following _ },
          Relation.ReflTransGen.single (@Move.dialed (l.desk phase lit))⟩, rfl⟩
      exact dialed.trans (streamFrame_streams dialed.makes.sound
        (dialed.follower.trans following) (fun other => by cases other))

/-- A record the leader sent is appended, and its session observed. -/
theorem applied_streams {l1 : Loop} {r : WalRec} (sound : l.Sound lit)
    (following : l.isFollower = true) (logged : Logged lit l l1 (some r)) :
    Streams .dispatching lit l ({ l1 with
      sessions := sessionFromRecord l1.sessions r
      walDirty := true
      stream := { l1.stream with lastErr := 0 } }.note (.applied r)) := by
  obtain ⟨rest, moved, index, moves⟩ := logged
  obtain ⟨seq, below⟩ := moved.at_next r rfl
  have first : walFirstSeq l1.wal = walFirstSeq l.wal := moved.first
  have next : walNextSeq l1.wal = walNextSeq l.wal + 1 := moved.next
  have index : l1.wal.index = walIndexAdd l.wal.index r := index
  have walSound := moved.sound
  have move := @Move.applied { l.desk .dispatching lit with
      durable := walDurableSeq l1.wal, trace := l1.trace } r rfl
    (by unfold Loop.desk; rw [following]; rfl) seq below
  have arrives : Moves (l.desk .dispatching lit) _ := moves.tail move
  generalize l1.wal = w at *
  generalize l1.os = os at *
  generalize l1.trace = trace at *
  subst rest
  refine ⟨⟨?_, ?_⟩, rfl⟩
  · exact { sound with wal := walSound, alone := follower_stream following _ }
  · refine Eq.subst ?_ arrives
    unfold Loop.desk Loop.note
    simp only [first, next, index]

theorem replApplyFrom_streams (p : Bytes) (fuel at' : Nat) (sound : l.Sound lit)
    (following : l.isFollower = true) :
    Streams .dispatching lit l (replApplyFrom p fuel l at') := by
  induction fuel generalizing l at' with
  | zero => exact .refl sound
  | succ fuel ih =>
      unfold replApplyFrom
      split
      · split
        · exact closeStream_streams sound following
        · rename_i r _decoded
          simp only
          split
          · exact closeStream_streams sound following
          · cases appends : logAppendAt l r (slice p (at' + WAL_REC_HEADER_SIZE)
                (p.length - (at' + WAL_REC_HEADER_SIZE))) with
            | mk res l1 =>
                obtain ⟨logged, carries⟩ := logAppendAt_logged sound appends
                cases res with
                | error e =>
                    have kept : Serves .dispatching lit l l1 := unlogged_serves sound logged
                    have follower : l1.isFollower = l.isFollower := by
                      rw [logged.rest]
                    exact Streams.trans ⟨kept.makes, follower⟩
                      (closeStream_streams kept.sound (follower.trans following))
                | ok out =>
                    simp only
                    have applied : Streams .dispatching lit l ({ l1 with
                        sessions := sessionFromRecord l1.sessions out
                        walDirty := true
                        stream := { l1.stream with lastErr := 0 } }.note (.applied out)) :=
                      applied_streams sound following logged
                    exact applied.trans (ih _ applied.makes.sound
                      (applied.follower.trans following))
      · exact .refl sound

theorem onStreamFrame_streams (sound : l.Sound lit) (following : l.isFollower = true)
    (h : MsgHeader) (payload : Bytes) :
    Streams .dispatching lit l (onStreamFrame l h payload) := by
  unfold onStreamFrame
  split
  · exact replApplyFrom_streams payload _ 0 sound following
  · split
    · exact setStream_same sound following rfl
    · exact closeStream_streams sound following

theorem onStreamActions_streams (actions : List ConnAction) (sound : l.Sound lit)
    (following : l.isFollower = true) :
    Streams .dispatching lit l (actions.foldl onStreamAction l) := by
  induction actions generalizing l with
  | nil => exact .refl sound
  | cons action rest ih =>
      have first : Streams .dispatching lit l (onStreamAction l action) := by
        cases action with
        | frame h payload => exact onStreamFrame_streams sound following h _
        | replyErr code sequence => exact closeStream_streams sound following
        | close => exact closeStream_streams sound following
      exact first.trans (ih first.makes.sound (first.follower.trans following))

theorem onReplRecvLoop_streams (fuel : Nat) (sound : l.Sound lit)
    (following : l.isFollower = true) : Streams .dispatching lit l (onReplRecvLoop fuel l) := by
  induction fuel generalizing l with
  | zero => exact .refl sound
  | succ fuel ih =>
      unfold onReplRecvLoop
      cases connFeed l.stream.conn 4 with
      | mk actions conn =>
          simp only
          have fed : Streams .dispatching lit l { l with stream := { l.stream with conn := conn } } :=
            setStream_same sound following rfl
          split
          · exact fed
          · have handled := onStreamActions_streams actions fed.makes.sound following
            refine fed.trans (handled.trans ?_)
            split
            · exact .refl handled.makes.sound
            · exact ih handled.makes.sound (handled.follower.trans following)

theorem doReplRecv_streams (sound : l.Sound lit) (following : l.isFollower = true)
    (received : Received) : Streams .dispatching lit l (doReplRecv l received) := by
  unfold doReplRecv
  split
  · exact .refl sound
  · cases received with
    | again => exact .refl sound
    | failed => exact closeStream_streams sound following
    | data bytes =>
        change Streams .dispatching lit l (onReplRecv l bytes)
        unfold onReplRecv
        split
        · exact closeStream_streams sound following
        · simp only
          have taken : Streams .dispatching lit l { l with
              stream := { l.stream with conn := connRecvCommit l.stream.conn bytes } } :=
            setStream_same sound following rfl
          have noted : Streams .dispatching lit { l with
              stream := { l.stream with conn := connRecvCommit l.stream.conn bytes } } _ :=
            ⟨note_makes taken.makes.sound (.heardDown bytes), rfl⟩
          exact taken.trans (noted.trans
            (onReplRecvLoop_streams _ noted.makes.sound following))

theorem streamWantOut_streams (sound : l.Sound lit) (following : l.isFollower = true)
    (want ctl : Bool) : Streams phase lit l (streamWantOut l want ctl) := by
  unfold streamWantOut
  split
  · exact .refl sound
  · split
    · exact closeStream_streams sound following
    · exact setStream_same sound following rfl

theorem onReplSend_streams (sound : l.Sound lit) (following : l.isFollower = true) (res : Int) :
    Streams phase lit l (onReplSend l res) := by
  unfold onReplSend
  split
  · exact closeStream_streams sound following
  · exact setStream_streams sound following (Relation.ReflTransGen.single
      (@Move.sentUp (l.desk phase lit) (l.stream.sendBuf.drop res.toNat) (List.drop_suffix _ _)))

theorem streamSend_streams (sound : l.Sound lit) (following : l.isFollower = true)
    (answer : SendAnswer) (sends : phase = .arming ∨ phase = .dispatching) :
    Streams phase lit l (streamSend l answer) := by
  unfold streamSend
  simp only
  have noted : Streams phase lit l (l.note (.handedUp (walDurableSeq l.wal) l.stream.sendBuf
      (takenOf answer.res l.stream.sendBuf))) :=
    ⟨note_makes sound (@Move.handedUp (l.desk phase lit) _ sends), rfl⟩
  refine noted.trans ?_
  split
  · exact streamWantOut_streams noted.makes.sound following _ _
  · have done : Streams phase lit _ _ := onReplSend_streams noted.makes.sound following answer.res
    exact done.trans (streamWantOut_streams done.makes.sound (done.follower.trans following) _ _)

theorem doReplSend_streams (sound : l.Sound lit) (following : l.isFollower = true)
    (answer : SendAnswer) : Streams .dispatching lit l (doReplSend l answer) := by
  unfold doReplSend
  split
  · exact .refl sound
  · split
    · exact streamWantOut_streams sound following _ _
    · exact streamSend_streams sound following answer (Or.inr rfl)

/-! ### Events -/

/-- Only a connection that the pass waits on is reported writable. -/
def Event.Shown (lit : Nat → Bool) : Event → Prop
  | .conn slot _ (some _) => lit slot = true
  | _ => True

theorem streamEvent_makes (sound : l.Sound lit) (connected ctl : Bool)
    (readable : Option Received) (writable : Option SendAnswer) :
    Makes .dispatching lit l (tickEvent l (.stream connected ctl readable writable)) := by
  simp only [tickEvent]
  cases following : l.isFollower with
  | true =>
      split
      · exact (onReplDial_streams sound following connected ctl).makes
      · cases readable with
        | none =>
            cases writable with
            | none => exact .refl sound
            | some answer => exact (doReplSend_streams sound following answer).makes
        | some received =>
            have received := doReplRecv_streams sound following received
            cases writable with
            | none => exact received.makes
            | some answer =>
                exact (received.trans (doReplSend_streams received.makes.sound
                  (received.follower.trans following) answer)).makes
  | false =>
      -- A leader has no stream.
      obtain ⟨fd, connecting⟩ := sound.alone following
      have recv (received : Received) : doReplRecv l received = l := by
        unfold doReplRecv
        rw [if_pos (Or.inl (by rw [fd]; decide))]
      have send (answer : SendAnswer) : doReplSend l answer = l := by
        unfold doReplSend
        rw [if_pos (Or.inl (by rw [fd]; decide))]
      rw [connecting, if_neg (by decide)]
      cases readable with
      | none =>
          cases writable with
          | none => exact .refl sound
          | some answer =>
              simp only [send]
              exact .refl sound
      | some received =>
          cases writable with
          | none =>
              simp only [recv]
              exact .refl sound
          | some answer =>
              simp only [recv, send]
              exact .refl sound

theorem tickEvent_makes (sound : l.Sound lit) {event : Event} (shown : event.Shown lit) :
    Makes .dispatching lit l (tickEvent l event) := by
  cases event with
  | listen accepted =>
      cases accepted with
      | none => exact .refl sound
      | some accepted =>
          simp only [tickEvent]
          split
          · exact .refl sound
          · exact onAccept_makes sound accepted
  | conn slot readable writable =>
      have received (received : Received) : Makes .dispatching lit l (doRecv l slot received) :=
        doRecv_makes sound slot received
      cases readable with
      | none =>
          cases writable with
          | none => exact .refl sound
          | some answer => exact doSend_makes sound slot answer shown
      | some bytes =>
          cases writable with
          | none => exact received bytes
          | some answer =>
              exact (received bytes).trans
                (doSend_makes (received bytes).sound slot answer shown)
  | signal =>
      have stops : Serves .dispatching lit l { l with stop := true } :=
        serves_aside sound rfl rfl rfl rfl rfl
      exact stops.makes
  | timer fired =>
      simp only [tickEvent]
      split
      · exact ⟨{ sound with },
          Relation.ReflTransGen.single (@Move.ticked (l.desk .dispatching lit) fired rfl)⟩
      · exact .refl sound
  | stream connected ctl readable writable =>
      exact streamEvent_makes sound connected ctl readable writable

end Msgsrvd
