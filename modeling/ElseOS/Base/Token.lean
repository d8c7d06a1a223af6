import Mathlib.Logic.Relation
import ElseOS.Base.Net

/-! Nets in which one party at a time has the word.

A party either listens at a port and does nothing else, or it has the word: it computes, and
it gives the word away with a message. Messages can be lost, and the word with them; as long as
no receive returns without a message, nobody else gets it. Such a net does what a sequential
machine does that knows nothing of ports and of waiting. -/

set_option autoImplicit false

namespace ElseOS.Base

variable {Party Endpoint Msg Shared Input : Type} {Local : Party → Type}

inductive Word (Party Endpoint Msg : Type) where
  | held (party : Party)
  | flying (sender : Party) (ep : Endpoint) (msg : Msg)
  | lost
  deriving DecidableEq, Repr

structure Config (Party Endpoint Msg Shared : Type) (Local : Party → Type) where
  states : (party : Party) → Local party
  shared : Shared
  word : Word Party Endpoint Msg

/-- A protocol for one word. `listens` is the port at which a party waits for it. -/
structure Turns (protocol : Protocol Party Endpoint Msg Shared Input Local) where
  listens : (party : Party) → Local party → Option Endpoint
  receives : ∀ {party state ep} input shared, listens party state = some ep →
    protocol.command party state input shared = some (.receive ep)
  speaks : ∀ {party state input shared ep}, listens party state = none →
    protocol.command party state input shared ≠ some (.receive ep)
  keeps : ∀ {party state input shared next changed},
    protocol.command party state input shared = some (.compute next changed) → listens party next = none
  yields : ∀ {party state input shared ep msg next},
    protocol.command party state input shared = some (.send ep msg next) → (listens party next).isSome = true
  resumes : ∀ {party state ep} msg,
    listens party state = some ep → listens party (protocol.resume party state msg) = none

section Machine

variable [DecidableEq Party] (protocol : Protocol Party Endpoint Msg Shared Input Local)

inductive Passes : Config Party Endpoint Msg Shared Local → Config Party Endpoint Msg Shared Local → Prop where
  | compute {states : (party : Party) → Local party} {shared changed : Shared} {party : Party} {input : Input}
      {next : Local party} : protocol.command party (states party) input shared = some (.compute next changed) →
      Passes ⟨states, shared, .held party⟩ ⟨Function.update states party next, changed, .held party⟩
  | send {states : (party : Party) → Local party} {shared : Shared} {party : Party} {input : Input} {next : Local party}
      {ep : Endpoint} {msg : Msg} : protocol.command party (states party) input shared = some (.send ep msg next) →
      Passes ⟨states, shared, .held party⟩ ⟨Function.update states party next, shared, .flying party ep msg⟩
  | hand {states : (party : Party) → Local party} {shared : Shared} {sender receiver : Party} {input : Input}
      {ep : Endpoint} {msg : Msg} : receiver ≠ sender →
      protocol.command receiver (states receiver) input shared = some (.receive ep) →
      Passes ⟨states, shared, .flying sender ep msg⟩
        ⟨Function.update states receiver (protocol.resume receiver (states receiver) msg), shared, .held receiver⟩
  | lose {states : (party : Party) → Local party} {shared : Shared} {sender : Party} {ep : Endpoint} {msg : Msg} :
      Passes ⟨states, shared, .flying sender ep msg⟩ ⟨states, shared, .lost⟩

def Goes (config after : Config Party Endpoint Msg Shared Local) : Prop :=
  Passes protocol config after ∧ after.word ≠ .lost

end Machine

namespace Net

def config (net : Net Party Endpoint Msg Shared Local) (word : Word Party Endpoint Msg) :
    Config Party Endpoint Msg Shared Local :=
  ⟨fun party => (net.status party).state, net.shared, word⟩

variable {protocol : Protocol Party Endpoint Msg Shared Input Local}

/-- Everybody but the one who has the word listens, and no message is under way but the one that carries it. -/
structure InTurn (turns : Turns protocol) (net : Net Party Endpoint Msg Shared Local) (word : Word Party Endpoint Msg) :
    Prop where
  waits : ∀ {party ep},
    (net.status party).receivesFrom = some ep → turns.listens party (net.status party).state = some ep
  listen : ∀ party, word ≠ .held party → (turns.listens party (net.status party).state).isSome = true
  sends : ∀ {party ep}, (net.status party).sendsTo = some ep → ∃ msg, word = .flying party ep msg
  queued : ∀ {ep party msg}, (party, msg) ∈ (net.ports ep).queued → word = .flying party ep msg
  flies : ∀ {party ep msg}, word = .flying party ep msg → (net.status party).sendsTo = some ep

section Step

variable {turns : Turns protocol} {net after : Net Party Endpoint Msg Shared Local} {word : Word Party Endpoint Msg}
  {party : Party} {input : Input}

theorem InTurn.held {state : Local party} {command : Command Endpoint Msg Shared (Local party)}
    (inTurn : InTurn turns net word) (ready : net.status party = .ready state)
    (commanded : protocol.command party state input net.shared = some command) (other : ∀ ep, command ≠ .receive ep) :
    word = .held party := by
  by_contra elsewhere
  obtain ⟨ep, listens⟩ := Option.isSome_iff_exists.mp (inTurn.listen party elsewhere)
  rw [ready, Status.state_ready] at listens
  rw [turns.receives input net.shared listens] at commanded
  exact other ep (Option.some.inj commanded).symm

theorem listens_of_receive {state : Local party} {ep : Endpoint} {shared : Shared} (turns : Turns protocol)
    (commanded : protocol.command party state input shared = some (.receive ep)) :
    turns.listens party state = some ep := by
  cases listens : turns.listens party state with
  | none => exact absurd commanded (turns.speaks listens)
  | some other =>
    rw [turns.receives input shared listens] at commanded
    cases commanded
    rfl

variable [DecidableEq Party] [DecidableEq Endpoint]

omit [DecidableEq Endpoint] in
theorem InTurn.setStatus {status : Status Endpoint (Local party)} {word' : Word Party Endpoint Msg}
    (inTurn : InTurn turns net word)
    (queued : ∀ ep other msg, (other, msg) ∈ (net.ports ep).queued → word' = .flying other ep msg)
    (waits : ∀ ep, status.receivesFrom = some ep → turns.listens party status.state = some ep)
    (listen : word' ≠ .held party → (turns.listens party status.state).isSome = true)
    (sends : ∀ ep, status.sendsTo = some ep → ∃ msg, word' = .flying party ep msg)
    (others : ∀ other, other ≠ party → word' ≠ .held other → word ≠ .held other)
    (kept : ∀ other ep msg, other ≠ party → word = .flying other ep msg → word' = .flying other ep msg)
    (flies : ∀ other ep msg, word' = .flying other ep msg →
      (other = party ∧ status.sendsTo = some ep) ∨ (other ≠ party ∧ word = .flying other ep msg)) :
    InTurn turns (net.setStatus party status) word' where
  waits := by
    intro other ep receives
    by_cases same : other = party
    · subst same
      simp only [Net.setStatus, Function.update_self] at receives ⊢
      exact waits ep receives
    · simp only [Net.setStatus, Function.update_of_ne same] at receives ⊢
      exact inTurn.waits receives
  listen := by
    intro other elsewhere
    by_cases same : other = party
    · subst same
      simp only [Net.setStatus, Function.update_self]
      exact listen elsewhere
    · simp only [Net.setStatus, Function.update_of_ne same]
      exact inTurn.listen other (others other same elsewhere)
  sends := by
    intro other ep sending
    by_cases same : other = party
    · subst same
      simp only [Net.setStatus, Function.update_self] at sending
      exact sends ep sending
    · simp only [Net.setStatus, Function.update_of_ne same] at sending
      obtain ⟨msg, flying⟩ := inTurn.sends sending
      exact ⟨msg, kept other ep msg same flying⟩
  queued := by
    intro ep other msg member
    exact queued ep other msg member
  flies := by
    intro other ep msg flying
    rcases flies other ep msg flying with ⟨rfl, sending⟩ | ⟨same, earlier⟩
    · simp only [Net.setStatus, Function.update_self, sending]
    · simp only [Net.setStatus, Function.update_of_ne same]
      exact inTurn.flies earlier

omit [DecidableEq Party] in
theorem InTurn.setPort {ep : Endpoint} {port : Port Party Msg} (inTurn : InTurn turns net word)
    (carries : ∀ other msg, (other, msg) ∈ port.queued → word = .flying other ep msg) :
    InTurn turns (net.setPort ep port) word where
  waits := inTurn.waits
  listen := inTurn.listen
  sends := inTurn.sends
  queued := by
    intro target other msg member
    rw [Net.setPort, queued_update] at member
    split at member
    next same =>
      subst same
      exact carries other msg member
    next => exact inTurn.queued member
  flies := inTurn.flies

omit [DecidableEq Endpoint] in
theorem config_setStatus (status : Status Endpoint (Local party)) : (net.setStatus party status).config word =
    ⟨Function.update (fun party => (net.status party).state) party status.state, net.shared, word⟩ := by
  unfold config
  congr 1
  funext other
  exact Function.apply_update (fun _ status => Status.state status) net.status party status other

omit [DecidableEq Endpoint] in
theorem config_setStatus_same {status : Status Endpoint (Local party)}
    (same : status.state = (net.status party).state) :
    (net.setStatus party status).config word = net.config word := by
  rw [config_setStatus, same, Function.update_eq_self]
  rfl

omit [DecidableEq Party] [DecidableEq Endpoint] in
theorem InTurn.quiet (inTurn : InTurn turns net word) (idle : ∀ sender ep msg, word ≠ .flying sender ep msg)
    (other : Party) :
    (net.status other).sendsTo = none := by
  cases sending : (net.status other).sendsTo with
  | none => rfl
  | some ep =>
    obtain ⟨msg, flying⟩ := inTurn.sends sending
    exact absurd flying (idle other ep msg)

theorem InTurn.await {state : Local party} {ep : Endpoint} (inTurn : InTurn turns net word)
    (ready : net.status party = .ready state) (listens : turns.listens party state = some ep) :
    InTurn turns
    ((net.setPort ep (.receivers ((net.ports ep).waiting ++ [party]))).setStatus party (.receiving ep state))
      word := by
  have joined : InTurn turns (net.setPort ep (.receivers ((net.ports ep).waiting ++ [party]))) word :=
    inTurn.setPort (by rintro _ _ ⟨⟩)
  refine joined.setStatus (fun _ _ _ member => joined.queued member) ?_ ?_ (by rintro _ ⟨⟩)
    (fun _ _ elsewhere => elsewhere) (fun _ _ _ _ flying => flying) ?_
  · rintro _ ⟨⟩
    exact listens
  · intro _
    rw [Status.state_receiving, listens]
    rfl
  · -- who waits has sent nothing
    intro other target msg flying
    refine .inr ⟨?_, flying⟩
    rintro rfl
    have sending := inTurn.flies flying
    rw [ready] at sending
    cases sending

omit [DecidableEq Endpoint] in
theorem release_comm {other : Party} (different : other ≠ party) (state : Local party) (state' : Local other) :
    (net.release other state').release party state = (net.release party state).release other state' := by
  unfold release setStatus
  rw [Function.update_comm different]

omit [DecidableEq Endpoint] in
theorem InTurn.resume {state : Local party} (inTurn : InTurn turns net .lost) :
    InTurn turns (net.release party state) (.held party) :=
  inTurn.setStatus (fun _ _ _ member => nomatch inTurn.queued member) nofun
  (fun elsewhere => absurd rfl elsewhere) nofun
    nofun nofun nofun

omit [DecidableEq Endpoint] in
theorem InTurn.yield {next : Local party} (inTurn : InTurn turns net (.held party))
    (listens : (turns.listens party next).isSome = true) : InTurn turns (net.release party next) .lost :=
  inTurn.setStatus (fun _ _ _ member => nomatch inTurn.queued member) nofun (fun _ => listens) nofun
    (fun other different _ same => different (by cases same; rfl)) nofun nofun

omit [DecidableEq Endpoint] in
theorem passes_hand {sender : Party} {ep : Endpoint} (apart : party ≠ sender)
    (commanded : protocol.command party (net.status party).state input net.shared = some (.receive ep)) (msg : Msg) :
    Passes protocol (net.config (.flying sender ep msg))
      ((net.release party (protocol.resume party (net.status party).state msg)).config (.held party)) := by
  rw [config_setStatus]
  exact .hand apart commanded

omit [DecidableEq Endpoint] in
theorem InTurn.compute {state next : Local party} {shared : Shared} (inTurn : InTurn turns net (.held party))
    (ready : net.status party = .ready state)
    (commanded : protocol.command party state input net.shared = some (.compute next shared)) :
    InTurn turns ((net.release party next).setShared shared) (.held party) ∧
    Goes protocol (net.config (.held party)) (((net.release party next).setShared shared).config (.held party)) := by
  constructor
  · have released : InTurn turns (net.release party next) (.held party) :=
      inTurn.setStatus (fun _ _ _ member => nomatch inTurn.queued member) nofun
      (fun elsewhere => absurd rfl elsewhere) nofun
        (fun _ _ elsewhere => elsewhere) nofun nofun
    exact ⟨released.waits, released.listen, released.sends, released.queued, released.flies⟩
  · refine ⟨?_, nofun⟩
    change Passes protocol _ { (net.release party next).config (.held party) with shared := shared }
    rw [config_setStatus]
    exact .compute (by simpa [ready] using commanded)

theorem InTurn.blockSend {state next : Local party} {ep : Endpoint} {msg : Msg}
    (inTurn : InTurn turns net (.held party)) (ready : net.status party = .ready state)
    (commanded : protocol.command party state input net.shared = some (.send ep msg next)) :
    InTurn turns
    ((net.setPort ep (.senders ((net.ports ep).queued ++ [(party, msg)]))).setStatus party (.sending ep next))
      (.flying party ep msg) ∧
    Goes protocol (net.config (.held party))
      (((net.setPort ep (.senders ((net.ports ep).queued ++ [(party, msg)]))).setStatus party (.sending ep next)).config
        (.flying party ep msg)) := by
  have empty : (net.ports ep).queued = [] :=
    List.eq_nil_iff_forall_not_mem.mpr fun _ member => nomatch inTurn.queued member
  constructor
  · have waiting : InTurn turns (net.setStatus party (.sending ep next)) (.flying party ep msg) :=
      inTurn.setStatus (fun _ _ _ member => nomatch inTurn.queued member) nofun (fun _ => turns.yields commanded)
        (fun target sends => ⟨msg, by cases sends; rfl⟩)
        (fun other different _ same => different (by cases same; rfl)) nofun
        (fun other target sent flying => by cases flying; exact .inl ⟨rfl, rfl⟩)
    refine waiting.setPort ?_
    rw [empty]
    intro other sent member
    cases List.mem_singleton.mp member
    rfl
  · refine ⟨?_, nofun⟩
    rw [config_setStatus]
    exact .send (by simpa [ready] using commanded)

theorem InTurn.deliver {state next : Local party} {ep : Endpoint} {msg : Msg} {receiver : Party} {rest : List Party}
    (inTurn : InTurn turns net (.held party)) (coherent : net.Coherent) (ready : net.status party = .ready state)
    (commanded : protocol.command party state input net.shared = some (.send ep msg next))
    (port : net.ports ep = .receivers (receiver :: rest)) :
    InTurn turns (((net.setPort ep (.receivers rest)).release receiver
      (protocol.resume receiver (net.status receiver).state msg)).release party next) (.held receiver) ∧
    Relation.TransGen (Goes protocol) (net.config (.held party)) ((((net.setPort ep (.receivers rest)).release receiver
      (protocol.resume receiver (net.status receiver).state msg)).release party next).config (.held receiver)) := by
  have receives := (coherent.receives ep receiver).mp (by simp [port])
  have listens := inTurn.waits receives
  have apart : receiver ≠ party := by
    rintro rfl
    simp [ready] at receives
  rw [release_comm apart]
  refine ⟨((inTurn.yield (turns.yields commanded)).resume).setPort (by rintro _ _ ⟨⟩), ?_⟩
  have sent : Passes protocol (net.config (.held party)) ((net.release party next).config (.flying party ep msg)) := by
    rw [config_setStatus]
    exact .send (by simpa [ready] using commanded)
  have kept : ((net.release party next).status receiver).state = (net.status receiver).state := by
    simp [release, Net.setStatus, Function.update_of_ne apart]
  have handed : Passes protocol ((net.release party next).config (.flying party ep msg))
      (((net.release party next).release receiver (protocol.resume receiver (net.status receiver).state msg)).config
        (.held receiver)) := by
    rw [← kept] at listens ⊢
    have receives : protocol.command receiver ((net.release party next).status receiver).state input
        (net.release party next).shared = some (.receive ep) := turns.receives input net.shared listens
    exact passes_hand apart receives msg
  exact .tail (.single ⟨sent, by rintro ⟨⟩⟩) ⟨handed, by rintro ⟨⟩⟩

theorem InTurn.take {state : Local party} {ep : Endpoint} {msg : Msg} {sender : Party} {rest : List (Party × Msg)}
    (inTurn : InTurn turns net word) (coherent : net.Coherent) (ready : net.status party = .ready state)
    (commanded : protocol.command party state input net.shared = some (.receive ep))
    (port : net.ports ep = .senders ((sender, msg) :: rest)) :
    InTurn turns (((net.setPort ep (.senders rest)).release sender (net.status sender).state).release party
      (protocol.resume party state msg)) (.held party) ∧
    Goes protocol (net.config word) ((((net.setPort ep (.senders rest)).release sender
      (net.status sender).state).release party (protocol.resume party state msg)).config (.held party)) := by
  have member : (sender, msg) ∈ (net.ports ep).queued := by simp [port]
  obtain rfl := inTurn.queued member
  have sends := (coherent.sends ep sender).mp (List.mem_map_of_mem member)
  have apart : party ≠ sender := by
    rintro rfl
    simp [ready] at sends
  -- no other message is under way
  have empty : ∀ target, ((net.setPort ep (.senders rest)).ports target).queued = [] := by
    intro target
    rw [List.eq_nil_iff_forall_not_mem]
    rintro ⟨other, sent⟩ queued
    rw [Net.setPort, queued_update] at queued
    split at queued
    next here =>
      cases inTurn.queued (show (other, sent) ∈ (net.ports ep).queued by rw [port]; exact List.mem_cons_of_mem _ queued)
      exact coherent.not_again port _ queued
    next elsewhere =>
      cases inTurn.queued queued
      exact elsewhere rfl
  constructor
  · have freed : InTurn turns ((net.setPort ep (.senders rest)).release sender (net.status sender).state) .lost := by
      have rested : InTurn turns (net.setPort ep (.senders rest)) (.flying sender ep msg) := by
        refine inTurn.setPort fun other sent queued => ?_
        have none := empty ep
        rw [Net.setPort, queued_update, if_pos rfl, Port.queued_senders] at none
        rw [Port.queued_senders, none] at queued
        cases queued
      refine rested.setStatus ?_ (by rintro _ ⟨⟩) (fun _ => inTurn.listen sender (by rintro ⟨⟩)) (by rintro _ ⟨⟩)
        (by rintro _ _ _ ⟨⟩) (fun _ _ _ different same => absurd (by cases same; rfl) different) (by rintro _ _ _ ⟨⟩)
      intro target other sent queued
      rw [empty target] at queued
      cases queued
    exact freed.resume
  · have same : (((net.setPort ep (.senders rest)).release sender (net.status sender).state).config
        (.flying sender ep msg)) = net.config (.flying sender ep msg) := config_setStatus_same rfl
    have own : (((net.setPort ep (.senders rest)).release sender (net.status sender).state).status party).state =
      state := by
      simp [release, Net.setStatus, Net.setPort, Function.update_of_ne apart, ready]
    rw [← same]
    rw [← own] at commanded ⊢
    exact ⟨passes_hand apart commanded msg, by rintro ⟨⟩⟩

omit [DecidableEq Endpoint] in
theorem passes_of_goes {config after : Config Party Endpoint Msg Shared Local}
    (goes : Relation.TransGen (Goes protocol) config after) : Relation.ReflTransGen (Passes protocol) config after :=
  (Relation.TransGen.mono (fun _ _ step => step.1) _ _ goes).to_reflTransGen

/-- One step of the net is none, one or two of the machine. The word gets lost only with a message. -/
theorem InTurn.step (inTurn : InTurn turns net word) (coherent : net.Coherent)
    (moves : Moves protocol net party input after) (fed : net.starves protocol (party, input) = false) :
    ∃ word', InTurn turns after word' ∧ Relation.ReflTransGen (Passes protocol) (net.config word) (after.config word') ∧
      (word' = .lost → word = .lost ∨ net.loses protocol (party, input) = true) := by
  cases moves with
  | compute ready commanded =>
    obtain rfl := inTurn.held ready commanded nofun
    obtain ⟨kept, goes⟩ := inTurn.compute ready commanded
    exact ⟨_, kept, .single goes.1, nofun⟩
  | deliver ready commanded port =>
    obtain rfl := inTurn.held ready commanded nofun
    obtain ⟨kept, goes⟩ := inTurn.deliver coherent ready commanded port
    exact ⟨_, kept, passes_of_goes goes, nofun⟩
  | blockSend ready commanded port =>
    obtain rfl := inTurn.held ready commanded nofun
    obtain ⟨kept, goes⟩ := inTurn.blockSend ready commanded
    exact ⟨_, kept, .single goes.1, nofun⟩
  | lose ready commanded port =>
    obtain rfl := inTurn.held ready commanded nofun
    refine ⟨.lost, inTurn.yield (turns.yields commanded), ?_, fun _ => .inr ?_⟩
    · rw [config_setStatus]
      exact .tail (.single (.send (by simpa [ready] using commanded))) .lose
    · simp [loses, command, ready, commanded, port]
  | take ready commanded port =>
    obtain ⟨kept, goes⟩ := inTurn.take coherent ready commanded port
    exact ⟨_, kept, .single goes.1, nofun⟩
  | blockReceive ready commanded port =>
    refine ⟨word, inTurn.await ready (listens_of_receive turns commanded), ?_, .inl⟩
    rw [config_setStatus_same (by simp [Net.setPort, ready])]
    exact .refl
  | starve ready commanded port => simp [starves, command, ready, commanded, port] at fed

/-- A run in which no receive returns without a message is one of the machine. -/
theorem passes_of_run {states : (party : Party) → Local party} {shared : Shared} {first : Party}
    {history : List (Net Party Endpoint Msg Shared Local × (Party × Input))} (turns : Turns protocol)
    (listen : ∀ party, party ≠ first → (turns.listens party (states party)).isSome = true)
    (run : Run (Net.step protocol) (start states shared) history net)
    (fed : Run.Guarded (fun net label => net.starves protocol label = false) history) :
    ∃ word, InTurn turns net word ∧
      Relation.ReflTransGen (Passes protocol) ⟨states, shared, .held first⟩ (net.config word) ∧
      (word = .lost → ∃ entry ∈ history, entry.1.loses protocol entry.2 = true) := by
  induction run with
  | start =>
    refine ⟨.held first, ⟨nofun, fun party elsewhere => listen party fun same => elsewhere (by rw [same]), nofun, nofun,
      nofun⟩, .refl, nofun⟩
  | @next past net after label earlier taken ih =>
    rw [Run.guarded_append] at fed
    obtain ⟨word, inTurn, passed, lost⟩ := ih fed.1
    have coherent := coherent_of_run (coherent_start states shared) earlier
    obtain ⟨party, input⟩ := label
    obtain ⟨word', kept, passes, loses⟩ := inTurn.step coherent (moves_of_step taken) fed.2
    refine ⟨word', kept, passed.trans passes, fun gone => ?_⟩
    rcases loses gone with before | now
    · obtain ⟨entry, member, losing⟩ := lost before
      exact ⟨entry, List.mem_append_left _ member, losing⟩
    · exact ⟨(net, (party, input)), by simp, now⟩

/-! ## Completion -/

def faultless (protocol : Protocol Party Endpoint Msg Shared Input Local) (net : Net Party Endpoint Msg Shared Local)
    (label : Party × Input) : Bool :=
  !net.loses protocol label && !net.starves protocol label

theorem step_of_ready {state : Local party} {command : Command Endpoint Msg Shared (Local party)}
    (ready : net.status party = .ready state)
    (commanded : protocol.command party state input net.shared = some command) :
    ∃ after, net.step protocol (party, input) = some after := by
  simp [step, Net.command, ready, commanded]

omit [DecidableEq Party] [DecidableEq Endpoint] in
theorem ready_of_awake (quiet : (net.status party).sendsTo = none) (awake : (net.status party).receivesFrom = none) :
    net.status party = .ready (net.status party).state := by
  cases status : net.status party with
  | ready state => rfl
  | sending ep next => simp [status] at quiet
  | receiving ep state => simp [status] at awake

omit [DecidableEq Party] [DecidableEq Endpoint] in
theorem InTurn.ready_listener {ep : Endpoint} (inTurn : InTurn turns net word) (coherent : net.Coherent)
    (quiet : (net.status party).sendsTo = none) (listens : turns.listens party (net.status party).state = some ep)
    (alone : (net.ports ep).waiting = []) : net.status party = .ready (net.status party).state := by
  refine ready_of_awake quiet ?_
  cases receives : (net.status party).receivesFrom with
  | none => rfl
  | some target =>
    obtain rfl := Option.some.inj (listens.symm.trans (inTurn.waits receives))
    have waits := (coherent.receives ep party).mpr receives
    rw [alone] at waits
    cases waits

omit [DecidableEq Party] [DecidableEq Endpoint] in
theorem InTurn.ready_speaker {command : Command Endpoint Msg Shared (Local party)}
    (inTurn : InTurn turns net (.held party))
    (commanded : protocol.command party (net.status party).state input net.shared = some command)
    (other : ∀ ep, command ≠ .receive ep) : net.status party = .ready (net.status party).state := by
  refine ready_of_awake (inTurn.quiet nofun party) ?_
  cases receives : (net.status party).receivesFrom with
  | none => rfl
  | some ep =>
    rw [turns.receives input net.shared (inTurn.waits receives)] at commanded
    exact absurd (Option.some.inj commanded).symm (other ep)

def Proceeds (turns : Turns protocol) (net : Net Party Endpoint Msg Shared Local) (word : Word Party Endpoint Msg) :
    Prop :=
  ∃ history after word', Run (Net.step protocol) net history after ∧
    Run.Guarded (fun net label => net.faultless protocol label = true) history ∧ InTurn turns after word' ∧
    Relation.TransGen (Goes protocol) (net.config word) (after.config word')

omit [DecidableEq Party] [DecidableEq Endpoint] in
theorem command_unique {state other : Local party} {command command' : Command Endpoint Msg Shared (Local party)}
    (ready : net.status party = .ready state) (commanded : protocol.command party state input net.shared = some command)
    (ready' : net.status party = .ready other)
    (commanded' : protocol.command party other input net.shared = some command') :
    command = command' := by
  rw [ready] at ready'
  cases ready'
  exact Option.some.inj (commanded.symm.trans commanded')

theorem InTurn.proceed_act {state : Local party} {command : Command Endpoint Msg Shared (Local party)}
    (inTurn : InTurn turns net word) (coherent : net.Coherent) (ready : net.status party = .ready state)
    (commanded : protocol.command party state input net.shared = some command) (other : ∀ ep, command ≠ .receive ep)
    (unlost : net.loses protocol (party, input) = false) : Proceeds turns net word := by
  obtain rfl := inTurn.held ready commanded other
  obtain ⟨after, taken⟩ := step_of_ready ready commanded
  have fed : net.starves protocol (party, input) = false := by
    rw [starves, command_of_ready ready, commanded]
    cases command with
    | receive ep => exact absurd rfl (other ep)
    | _ => rfl
  have sound : Run.Guarded (fun net label => net.faultless protocol label = true) [(net, (party, input))] := by
    intro entry member
    rw [List.mem_singleton.mp member]
    simp [faultless, unlost, fed]
  refine ⟨[(net, (party, input))], after, ?_⟩
  cases moves_of_step taken with
  | compute ready' commanded' =>
    obtain ⟨kept, goes⟩ := inTurn.compute ready' commanded'
    exact ⟨_, .single taken, sound, kept, .single goes⟩
  | deliver ready' commanded' port =>
    obtain ⟨kept, goes⟩ := inTurn.deliver coherent ready' commanded' port
    exact ⟨_, .single taken, sound, kept, goes⟩
  | blockSend ready' commanded' port =>
    obtain ⟨kept, goes⟩ := inTurn.blockSend ready' commanded'
    exact ⟨_, .single taken, sound, kept, .single goes⟩
  | lose ready' commanded' port => simp [loses, command_of_ready ready', commanded', port] at unlost
  | take ready' commanded' | blockReceive ready' commanded' | starve ready' commanded' =>
    exact absurd (command_unique ready commanded ready' commanded') (other _)

/-- A receiver is made to wait, and then the message is sent. -/
theorem InTurn.proceed_await {state next : Local party} {ep : Endpoint} {msg : Msg} {receiver : Party}
    (inTurn : InTurn turns net (.held party)) (coherent : net.Coherent) (ready : net.status party = .ready state)
    (commanded : protocol.command party state input net.shared = some (.send ep msg next))
    (port : net.ports ep = .receivers []) (apart : receiver ≠ party)
    (listens : turns.listens receiver (net.status receiver).state = some ep) : Proceeds turns net (.held party) := by
  have readyReceiver :=
    inTurn.ready_listener coherent (inTurn.quiet (by rintro _ _ _ ⟨⟩) receiver) listens (by rw [port]; rfl)
  have receives := turns.receives input net.shared listens
  obtain ⟨middle, isMiddle⟩ : ∃ middle,
    middle = (net.setPort ep (.receivers ((net.ports ep).waiting ++ [receiver]))).setStatus
    receiver (.receiving ep (net.status receiver).state) := ⟨_, rfl⟩
  have taken : net.step protocol (receiver, input) = some middle := by
    rw [Net.step, command_of_ready readyReceiver, receives, isMiddle]
    simp [Net.receive, port, Port.receive]
  have waits : InTurn turns middle (.held party) := isMiddle ▸ inTurn.await readyReceiver listens
  have same : middle.config (.held party) = net.config (.held party) := by
    rw [isMiddle]
    exact config_setStatus_same rfl
  have readyMiddle : middle.status party = .ready state := by
    simp [isMiddle, Net.setStatus, Net.setPort, Function.update_of_ne apart.symm, ready]
  have commandedMiddle : protocol.command party state input middle.shared = some (.send ep msg next) := by
    rw [isMiddle]
    exact commanded
  have portMiddle : middle.ports ep = .receivers [receiver] := by
    simp [isMiddle, Net.setStatus, Net.setPort, port]
  have unlost : middle.loses protocol (party, input) = false := by
    rw [loses, command_of_ready readyMiddle, commandedMiddle]
    simp [portMiddle]
  obtain ⟨history, after, word', run, sound, kept, goes⟩ :=
    waits.proceed_act (coherent.step (moves_of_step taken)) readyMiddle
    commandedMiddle (by rintro _ ⟨⟩) unlost
  refine ⟨[(net, (receiver, input))] ++ history, after, word', (Run.single taken).trans run, ?_, kept, same ▸ goes⟩
  intro entry member
  rcases List.mem_append.mp member with first | later
  · rw [List.mem_singleton.mp first]
    simp [faultless, loses, starves, command_of_ready readyReceiver, receives, port]
  · exact sound entry later

theorem InTurn.proceed_take {sender receiver : Party} {ep : Endpoint} {msg : Msg}
    (inTurn : InTurn turns net (.flying sender ep msg)) (coherent : net.Coherent) (input : Input)
    (apart : receiver ≠ sender) (listens : turns.listens receiver (net.status receiver).state = some ep) :
    Proceeds turns net (.flying sender ep msg) := by
  obtain ⟨rest, port⟩ : ∃ rest, net.ports ep = .senders ((sender, msg) :: rest) := by
    have queued := (coherent.sends ep sender).mpr (inTurn.flies rfl)
    cases port : net.ports ep with
    | senders queue =>
      cases queue with
      | nil => simp [port] at queued
      | cons first rest =>
        obtain ⟨other, sent⟩ := first
        have member : (other, sent) ∈ (net.ports ep).queued := by simp [port]
        cases inTurn.queued member
        exact ⟨rest, rfl⟩
    | idle => simp [port] at queued
    | receivers queue => simp [port] at queued
  have quiet : (net.status receiver).sendsTo = none := by
    cases sends : (net.status receiver).sendsTo with
    | none => rfl
    | some target =>
      obtain ⟨_, same⟩ := inTurn.sends sends
      cases same
      exact absurd rfl apart
  have ready := inTurn.ready_listener coherent quiet listens (by rw [port]; rfl)
  have receives := turns.receives input net.shared listens
  obtain ⟨kept, goes⟩ := inTurn.take coherent ready receives port
  refine ⟨[(net, (receiver, input))], _, _, .single ?_, ?_, kept, .single goes⟩
  · rw [Net.step, command_of_ready ready, receives]
    simp [Net.receive, port, Port.receive]
  · intro entry member
    rw [List.mem_singleton.mp member]
    simp [faultless, loses, starves, command_of_ready ready, receives, port]

/-- Where the machine can go on, the net can. -/
theorem InTurn.proceed {config : Config Party Endpoint Msg Shared Local} (inTurn : InTurn turns net word)
    (coherent : net.Coherent) (goes : Goes protocol (net.config word) config)
    (heard : ∀ sender ep msg, config.word = .flying sender ep msg →
      ∃ receiver, receiver ≠ sender ∧ turns.listens receiver (config.states receiver) = some ep) :
    Proceeds turns net word := by
  obtain ⟨passes, kept⟩ := goes
  generalize isConfig : net.config word = before at passes
  cases passes with
  | @compute states shared changed party input next commanded =>
    cases isConfig
    exact inTurn.proceed_act coherent (inTurn.ready_speaker commanded nofun) commanded nofun
      (by rw [loses, command_of_ready (inTurn.ready_speaker commanded nofun), commanded])
  | @send states shared party input next ep msg commanded =>
    cases isConfig
    have ready := inTurn.ready_speaker commanded nofun
    by_cases port : net.ports ep = .receivers []
    · obtain ⟨receiver, apart, listens⟩ := heard party ep msg rfl
      dsimp only at listens
      rw [Function.update_of_ne apart] at listens
      exact inTurn.proceed_await coherent ready commanded port apart listens
    · refine inTurn.proceed_act coherent ready commanded nofun ?_
      rw [loses, command_of_ready ready, commanded]
      cases found : net.ports ep with
      | receivers queue =>
        cases queue with
        | nil => exact absurd found port
        | cons => simp [found]
      | _ => simp [found]
  | @hand states shared sender receiver input ep msg apart commanded =>
    cases isConfig
    exact inTurn.proceed_take coherent input apart (listens_of_receive turns commanded)
  | lose => exact absurd rfl kept

/-- Where the machine can always go on until it is done, and gets nearer with every step, the net can. -/
theorem InTurn.completes {Good Done : Config Party Endpoint Msg Shared Local → Prop}
    {rank : Config Party Endpoint Msg Shared Local → Nat}
    (keeps : ∀ {config after}, Good config → Goes protocol config after → Good after ∧ rank after < rank config)
    (lives : ∀ {config}, Good config → config.word ≠ .lost → ¬ Done config → ∃ after, Goes protocol config after)
    (heard : ∀ {config}, Good config → ∀ sender ep msg, config.word = .flying sender ep msg →
      ∃ receiver, receiver ≠ sender ∧ turns.listens receiver (config.states receiver) = some ep)
    (inTurn : InTurn turns net word) (coherent : net.Coherent) (good : Good (net.config word)) (kept : word ≠ .lost) :
    ∃ history after word', Run (Net.step protocol) net history after ∧
      Run.Guarded (fun net label => net.faultless protocol label = true) history ∧ InTurn turns after word' ∧
      Good (after.config word') ∧ Done (after.config word') := by
  have along : ∀ {config after}, Relation.TransGen (Goes protocol) config after → Good config →
      Good after ∧ after.word ≠ .lost ∧ rank after < rank config := by
    intro config after goes good
    induction goes with
    | single first =>
      obtain ⟨good, nearer⟩ := keeps good first
      exact ⟨good, first.2, nearer⟩
    | tail _ last ih =>
      obtain ⟨good, nearer⟩ := keeps ih.1 last
      exact ⟨good, last.2, Nat.lt_trans nearer ih.2.2⟩
  -- by induction on the distance that is left
  generalize left : rank (net.config word) = distance
  induction distance using Nat.strongRecOn generalizing net word with
  | ind distance ih =>
    by_cases done : Done (net.config word)
    · exact ⟨[], net, word, .start, Run.guarded_nil _, inTurn, good, done⟩
    · obtain ⟨next, goes⟩ := lives good kept done
      obtain ⟨history, middle, word', run, sound, waits, passed⟩ :=
        inTurn.proceed coherent goes (heard (keeps good goes).1)
      obtain ⟨goodMiddle, keptMiddle, nearer⟩ := along passed good
      obtain ⟨later, after, final, ran, soundLater, facts⟩ := ih (rank (middle.config word')) (left ▸ nearer) waits
        (coherent_of_run coherent run) goodMiddle keptMiddle rfl
      refine ⟨history ++ later, after, final, run.trans ran, ?_, facts⟩
      intro entry member
      exact (List.mem_append.mp member).elim (sound entry) (soundLater entry)

end Step

end Net

end ElseOS.Base
