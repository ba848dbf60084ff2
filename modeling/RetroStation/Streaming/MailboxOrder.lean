import RetroStation.Streaming.Mailbox

/-! # The order of a mailbox

Everything a reader has read, the queue and the waiting title make one list. A
step moves entries along it, drops the waiting title from its end or appends to
it, so titles and the statuses that supersede them stay in the order told.
-/

namespace RetroStation.Streaming

namespace ListenerEvent

def serial : ListenerEvent → Nat
  | .nowPlaying title => title.serial
  | .status said => said.serial

def status? : ListenerEvent → Option Status
  | .nowPlaying _ => none
  | .status said => some said

/-- The event must keep its place: a title, or a status told to supersede one. -/
def Ordered (told : List Delivery) : ListenerEvent → Prop
  | .nowPlaying _ => True
  | .status said => .supersede said ∈ told

end ListenerEvent

/-- Of two events that must keep their places the first was told first. -/
def InOrder (told : List Delivery) (first second : ListenerEvent) : Prop :=
  first.Ordered told → second.Ordered told → first.serial < second.serial

/-- The title was waiting when the subscription began, or was told to it. -/
def Offered (initial : Option Held) (told : List Delivery) (held : Held) : Prop :=
  initial = some held ∨ .hold held ∈ told

theorem Offered.mono {initial : Option Held} {told : List Delivery} {held : Held}
    (hoffered : Offered initial told held) (more : List Delivery) :
    Offered initial (told ++ more) held :=
  hoffered.imp_right (List.mem_append_left more)

namespace Mailbox

/-- The queue, then the waiting title. -/
def unread (mailbox : Mailbox) : List ListenerEvent :=
  mailbox.queue ++ mailbox.held.toList.map (.nowPlaying ·.title)

/-- The title a reader's sleep was for, once the sleep has run in full. -/
def sleptFor (mailbox : Mailbox) : Option Held :=
  match mailbox.reader with
  | .idle => none
  | .waiting held _ slept | .settling held slept _ => if slept then held else none

end Mailbox

/-- What is known of a mailbox from what was told to it and read from it, before
anything of serial `next` is told. -/
structure MailboxOk (initial : Option Held) (told : List Delivery) (read : List ListenerEvent)
    (next : Nat) (elapsedNow : Int) (mailbox : Mailbox) : Prop where
  toldBefore : ∀ delivery ∈ told, delivery.serial < next
  toldOrder : told.Pairwise fun first second => first.serial < second.serial
  before : ∀ event ∈ read ++ mailbox.unread, event.serial < next
  order : (read ++ mailbox.unread).Pairwise (InOrder told)
  statuses : mailbox.isShut = false →
    (read ++ mailbox.queue).filterMap ListenerEvent.status? = told.filterMap Delivery.status?
  statusesRead : read.filterMap ListenerEvent.status? <+: told.filterMap Delivery.status?
  queued : ∀ title, .nowPlaying title ∈ mailbox.queue →
    ∃ held, Offered initial told held ∧ held.title = title ∧ held.showsAt ≤ elapsedNow
  held : ∀ held, mailbox.held = some held → Offered initial told held
  slept : ∀ held, mailbox.sleptFor = some held → held.showsAt ≤ elapsedNow

/-- A new mailbox holds at most the title it was made with. -/
theorem mailboxOk_made {current : Option Held} {next : Nat}
    (hcurrent : ∀ held, current = some held → held.title.serial < next) (elapsedNow : Int) :
    MailboxOk current [] [] next elapsedNow { held := current } where
  toldBefore := by simp
  toldOrder := List.Pairwise.nil
  before event hevent := by
    cases current with
    | none => simp [Mailbox.unread] at hevent
    | some held =>
        obtain rfl : event = .nowPlaying held.title := by simpa [Mailbox.unread] using hevent
        exact hcurrent held rfl
  order := by cases current <;> simp [Mailbox.unread]
  statuses := by simp
  statusesRead := by simp
  queued := by simp
  held held hheld := .inl hheld
  slept := by simp [Mailbox.sleptFor]

/-! ## One operation at a time -/

theorem InOrder.told {told : List Delivery} {first second : ListenerEvent} {delivery : Delivery}
    (horder : InOrder told first second) (hfirst : first.serial < delivery.serial)
    (hsecond : second.serial < delivery.serial) :
    InOrder (told ++ [delivery]) first second := by
  have hsame : ∀ event : ListenerEvent, event.serial < delivery.serial →
      event.Ordered (told ++ [delivery]) → event.Ordered told := by
    rintro (title | said) hserial hordered
    · trivial
    · rcases List.mem_append.mp hordered with hearlier | hnow
      · exact hearlier
      · obtain rfl := List.mem_singleton.mp hnow
        exact absurd hserial (lt_irrefl _)
  exact fun hone htwo => horder (hsame first hfirst hone) (hsame second hsecond htwo)

/-- An event that need not keep its place can stand anywhere. -/
theorem pairwise_insert {told : List Delivery} {before after : List ListenerEvent}
    {event : ListenerEvent} (hpairwise : (before ++ after).Pairwise (InOrder told))
    (hfree : ¬ event.Ordered told) : (before ++ event :: after).Pairwise (InOrder told) := by
  rw [List.pairwise_append] at hpairwise ⊢
  obtain ⟨hbefore, hafter, hacross⟩ := hpairwise
  refine ⟨hbefore, List.pairwise_cons.mpr ⟨fun _ _ hordered => absurd hordered hfree, hafter⟩, ?_⟩
  intro first hfirst second hsecond
  rcases List.mem_cons.mp hsecond with rfl | hsecond
  · exact fun _ hordered => absurd hordered hfree
  · exact hacross first hfirst second hsecond

/-- The newest event stands last. -/
theorem pairwise_newest {told : List Delivery} {events : List ListenerEvent}
    {event : ListenerEvent} (hpairwise : events.Pairwise (InOrder told))
    (hbefore : ∀ earlier ∈ events, earlier.serial < event.serial) :
    (events ++ [event]).Pairwise (InOrder told) := by
  refine List.pairwise_append.mpr ⟨hpairwise, List.pairwise_singleton _ _, ?_⟩
  intro earlier hearlier last hlast _ _
  obtain rfl := List.mem_singleton.mp hlast
  exact hbefore earlier hearlier

namespace Mailbox

@[simp] theorem wake_queue (mailbox : Mailbox) : mailbox.wake.queue = mailbox.queue := by
  unfold wake; split <;> rfl

@[simp] theorem wake_held (mailbox : Mailbox) : mailbox.wake.held = mailbox.held := by
  unfold wake; split <;> rfl

@[simp] theorem wake_isShut (mailbox : Mailbox) : mailbox.wake.isShut = mailbox.isShut := by
  unfold wake; split <;> rfl

@[simp] theorem wake_unread (mailbox : Mailbox) : mailbox.wake.unread = mailbox.unread := by
  simp [unread]

@[simp] theorem wake_sleptFor (mailbox : Mailbox) : mailbox.wake.sleptFor = mailbox.sleptFor := by
  unfold wake
  split
  next hreader => simp [sleptFor, hreader]
  next => rfl

theorem replaceTitle_some (mailbox : Mailbox) (elapsedNow : Int) (held : Held) :
    mailbox.replaceTitle elapsedNow (some held) =
      { mailbox.replaceTitle elapsedNow none with held := some held } := by
  unfold replaceTitle
  split
  · split <;> rfl
  · rfl

@[simp] theorem replaceTitle_isShut (mailbox : Mailbox) (elapsedNow : Int)
    (held : Option Held) : (mailbox.replaceTitle elapsedNow held).isShut = mailbox.isShut := by
  unfold replaceTitle
  split
  · split <;> rfl
  · rfl

@[simp] theorem replaceTitle_held (mailbox : Mailbox) (elapsedNow : Int)
    (held : Option Held) : (mailbox.replaceTitle elapsedNow held).held = held := by
  unfold replaceTitle
  split
  · split <;> rfl
  · rfl

@[simp] theorem replaceTitle_reader (mailbox : Mailbox) (elapsedNow : Int)
    (held : Option Held) : (mailbox.replaceTitle elapsedNow held).reader = mailbox.reader := by
  unfold replaceTitle
  split
  · split <;> rfl
  · rfl

end Mailbox

namespace MailboxOk

variable {initial : Option Held} {told : List Delivery} {read : List ListenerEvent} {next : Nat}
  {elapsedNow : Int} {mailbox : Mailbox}

/-- A step that only moves entries along or drops some of them. -/
theorem change (hok : MailboxOk initial told read next elapsedNow mailbox)
    {read' : List ListenerEvent} {mailbox' : Mailbox}
    (hentries : (read' ++ mailbox'.unread).Sublist (read ++ mailbox.unread))
    (hstatuses : mailbox'.isShut = false → mailbox.isShut = false ∧
      (read' ++ mailbox'.queue).filterMap ListenerEvent.status? =
        (read ++ mailbox.queue).filterMap ListenerEvent.status?)
    (hread : read'.filterMap ListenerEvent.status? <+: told.filterMap Delivery.status?)
    (hqueued : ∀ event ∈ mailbox'.queue, event ∈ mailbox.queue ∨ ∃ held,
      mailbox.held = some held ∧ event = .nowPlaying held.title ∧ held.showsAt ≤ elapsedNow)
    (hheld : ∀ held, mailbox'.held = some held → mailbox.held = some held)
    (hslept : ∀ held, mailbox'.sleptFor = some held →
      mailbox.sleptFor = some held ∨ held.showsAt ≤ elapsedNow) :
    MailboxOk initial told read' next elapsedNow mailbox' where
  toldBefore := hok.toldBefore
  toldOrder := hok.toldOrder
  before event hevent := hok.before event (hentries.subset hevent)
  order := hok.order.sublist hentries
  statuses hopen := by
    obtain ⟨hwas, hsame⟩ := hstatuses hopen
    rw [hsame, hok.statuses hwas]
  statusesRead := hread
  queued title htitle := by
    rcases hqueued _ htitle with hearlier | ⟨held, hmine, heq, hdue⟩
    · exact hok.queued title hearlier
    · exact ⟨held, hok.held held hmine, (ListenerEvent.nowPlaying.inj heq).symm, hdue⟩
  held held hmine := hok.held held (hheld held hmine)
  slept held hmine := (hslept held hmine).elim (hok.slept held) id

theorem wake (hok : MailboxOk initial told read next elapsedNow mailbox) :
    MailboxOk initial told read next elapsedNow mailbox.wake :=
  hok.change (by simp) (by simp) hok.statusesRead (fun _ hevent => .inl (by simpa using hevent))
    (by simp) fun held hmine => .inl (by simpa using hmine)

/-- The clock moves on. -/
theorem later (hok : MailboxOk initial told read next elapsedNow mailbox) {now : Int}
    (hnow : elapsedNow ≤ now) : MailboxOk initial told read next now mailbox where
  toldBefore := hok.toldBefore
  toldOrder := hok.toldOrder
  before := hok.before
  order := hok.order
  statuses := hok.statuses
  statusesRead := hok.statusesRead
  queued title htitle := by
    obtain ⟨held, hoffered, heq, hdue⟩ := hok.queued title htitle
    exact ⟨held, hoffered, heq, Int.le_trans hdue hnow⟩
  held := hok.held
  slept held hmine := Int.le_trans (hok.slept held hmine) hnow

/-- Calls of the feed that reach no one here. -/
theorem mono (hok : MailboxOk initial told read next elapsedNow mailbox) {later : Nat}
    (hlater : next ≤ later) : MailboxOk initial told read later elapsedNow mailbox :=
  { hok with
    toldBefore := fun delivery hmem => (hok.toldBefore delivery hmem).trans_le hlater
    before := fun event hmem => (hok.before event hmem).trans_le hlater }

theorem shut (hok : MailboxOk initial told read next elapsedNow mailbox) :
    MailboxOk initial told read next elapsedNow mailbox.shut := by
  have hshut : MailboxOk initial told read next elapsedNow
      { mailbox with queue := [], held := none, isShut := true } :=
    hok.change (by simp [Mailbox.unread]) (by simp) hok.statusesRead (by simp) (by simp)
      fun held hmine => .inl hmine
  exact hshut.wake

/-- The waiting title leaves: told if its delay has passed, dropped if not. -/
theorem dropTitle (hok : MailboxOk initial told read next elapsedNow mailbox) :
    MailboxOk initial told read next elapsedNow (mailbox.replaceTitle elapsedNow none) := by
  refine hok.change ?_ ?_ hok.statusesRead ?_ (by simp)
    fun held hmine => .inl (by simpa [Mailbox.sleptFor] using hmine)
  · cases hheld : mailbox.held with
    | none => simp [Mailbox.replaceTitle, Mailbox.unread, hheld]
    | some held =>
        by_cases hdue : held.showsAt ≤ elapsedNow
        · simp [Mailbox.replaceTitle, Mailbox.unread, hheld, hdue]
        · simp [Mailbox.replaceTitle, Mailbox.unread, hheld, hdue]
  · intro hopen
    refine ⟨by simpa using hopen, ?_⟩
    unfold Mailbox.replaceTitle
    split
    · split <;> simp [ListenerEvent.status?]
    · rfl
  · intro event hevent
    unfold Mailbox.replaceTitle at hevent
    split at hevent
    next held hheld =>
      split at hevent
      next hdue =>
        rcases List.mem_append.mp hevent with hevent | hevent
        · exact .inl hevent
        · exact .inr ⟨held, hheld, List.mem_singleton.mp hevent, hdue⟩
      next => exact .inl hevent
    next => exact .inl hevent

/-- A status is told: it goes behind the queue, before a title that waits only
when it does not supersede it. -/
theorem tell (hok : MailboxOk initial told read next elapsedNow mailbox) {status : Status}
    (hserial : status.serial = next) {delivery : Delivery}
    (hdelivery : delivery = .tell status ∨ (delivery = .supersede status ∧ mailbox.held = none)) :
    MailboxOk initial (told ++ [delivery]) read (next + 1) elapsedNow (mailbox.tell status) := by
  have hnew : delivery.serial = next := by
    rcases hdelivery with rfl | ⟨rfl, -⟩ <;> exact hserial
  have hstatus : delivery.status? = some status := by
    rcases hdelivery with rfl | ⟨rfl, -⟩ <;> rfl
  have hbefore : ∀ event ∈ read ++ mailbox.unread, event.serial < delivery.serial :=
    fun event hevent => hnew ▸ hok.before event hevent
  have hold : (read ++ mailbox.unread).Pairwise (InOrder (told ++ [delivery])) :=
    hok.order.imp_of_mem fun hfirst hsecond horder =>
      horder.told (hbefore _ hfirst) (hbefore _ hsecond)
  refine MailboxOk.wake ?_
  constructor
  case toldBefore =>
    intro other hother
    rcases List.mem_append.mp hother with hearlier | hnow
    · exact (hok.toldBefore other hearlier).trans (Nat.lt_succ_self next)
    · obtain rfl := List.mem_singleton.mp hnow
      exact hnew ▸ Nat.lt_succ_self next
  case toldOrder =>
    refine List.pairwise_append.mpr ⟨hok.toldOrder, List.pairwise_singleton _ _, ?_⟩
    intro earlier hearlier last hlast
    rw [List.mem_singleton.mp hlast, hnew]
    exact hok.toldBefore earlier hearlier
  case before =>
    intro event hevent
    have hcases : event ∈ read ++ mailbox.unread ∨ event = .status status := by
      simp only [Mailbox.unread, List.mem_append, List.mem_singleton] at hevent ⊢
      tauto
    rcases hcases with hearlier | rfl
    · exact (hok.before event hearlier).trans (Nat.lt_succ_self next)
    · exact hserial ▸ Nat.lt_succ_self next
  -- The status goes behind the queue, and before a title that is still held.
  case order =>
    have hsplit : read ++ Mailbox.unread
      { mailbox with queue := mailbox.queue ++ [.status status] } =
        (read ++ mailbox.queue) ++
          .status status :: mailbox.held.toList.map (fun held => .nowPlaying held.title) := by
      simp [Mailbox.unread]
    rw [hsplit]
    rw [Mailbox.unread, ← List.append_assoc] at hold hbefore
    rcases hdelivery with rfl | ⟨rfl, hheld⟩
    · refine pairwise_insert hold fun hordered => ?_
      rcases List.mem_append.mp hordered with hearlier | hnow
      · exact absurd (hok.toldBefore _ hearlier) (by simp [Delivery.serial, hserial])
      · simp at hnow
    · rw [hheld] at hold hbefore ⊢
      simp only [Option.toList_none, List.map_nil, List.append_nil] at hold hbefore ⊢
      exact pairwise_newest hold hbefore
  -- Titles between them do not change the order in which statuses are read.
  case statuses =>
    intro hopen
    calc (read ++ (mailbox.queue ++ [ListenerEvent.status status])).filterMap ListenerEvent.status?
        = (read ++ mailbox.queue).filterMap ListenerEvent.status? ++ [status] := by
          simp [ListenerEvent.status?]
      _ = (told ++ [delivery]).filterMap Delivery.status? := by
          rw [hok.statuses hopen]
          simp [hstatus]
  case statusesRead =>
    rw [List.filterMap_append]
    exact hok.statusesRead.trans (List.prefix_append _ _)
  case queued =>
    intro title htitle
    have hearlier : ListenerEvent.nowPlaying title ∈ mailbox.queue := by simpa using htitle
    obtain ⟨held, hoffered, hdue⟩ := hok.queued title hearlier
    exact ⟨held, hoffered.mono _, hdue⟩
  case held => exact fun held hmine => (hok.held held hmine).mono _
  case slept => exact hok.slept

/-- A title is held in an empty place. -/
theorem hold (hok : MailboxOk initial told read next elapsedNow mailbox)
    (hempty : mailbox.held = none) {held : Held} (hserial : held.title.serial = next) :
    MailboxOk initial (told ++ [.hold held]) read (next + 1) elapsedNow
      { mailbox with held := some held } := by
  have hunread : read ++ mailbox.unread = read ++ mailbox.queue := by
    simp [Mailbox.unread, hempty]
  have hnewest : read ++ Mailbox.unread { mailbox with held := some held } =
      (read ++ mailbox.unread) ++ [.nowPlaying held.title] := by
    simp [Mailbox.unread, hempty]
  have hbefore : ∀ event ∈ read ++ mailbox.unread, event.serial < held.title.serial :=
    fun event hevent => hserial ▸ hok.before event hevent
  constructor
  case toldBefore =>
    intro other hother
    rcases List.mem_append.mp hother with hearlier | hnow
    · exact (hok.toldBefore other hearlier).trans (Nat.lt_succ_self next)
    · obtain rfl := List.mem_singleton.mp hnow
      exact hserial ▸ Nat.lt_succ_self next
  case toldOrder =>
    refine List.pairwise_append.mpr ⟨hok.toldOrder, List.pairwise_singleton _ _, ?_⟩
    intro earlier hearlier last hlast
    rw [List.mem_singleton.mp hlast]
    exact (hok.toldBefore earlier hearlier).trans_eq hserial.symm
  case before =>
    intro event hevent
    rw [hnewest] at hevent
    rcases List.mem_append.mp hevent with hearlier | hnow
    · exact (hok.before event hearlier).trans (Nat.lt_succ_self next)
    · obtain rfl := List.mem_singleton.mp hnow
      exact hserial ▸ Nat.lt_succ_self next
  case order =>
    rw [hnewest]
    refine pairwise_newest ?_ hbefore
    exact hok.order.imp_of_mem fun hfirst hsecond horder =>
      horder.told (hbefore _ hfirst) (hbefore _ hsecond)
  case statuses =>
    intro hopen
    rw [hok.statuses hopen]
    simp [Delivery.status?]
  case statusesRead =>
    rw [List.filterMap_append]
    exact hok.statusesRead.trans (List.prefix_append _ _)
  case queued =>
    intro title htitle
    obtain ⟨found, hoffered, hdue⟩ := hok.queued title htitle
    exact ⟨found, hoffered.mono _, hdue⟩
  case held =>
    rintro found hfound
    obtain rfl := Option.some.inj hfound
    exact .inr (List.mem_append_right _ (List.mem_singleton_self _))
  case slept => exact hok.slept

theorem deliver (hok : MailboxOk initial told read next elapsedNow mailbox) {delivery : Delivery}
    (hserial : delivery.serial = next) :
    MailboxOk initial (told ++ [delivery]) read (next + 1) elapsedNow
      (mailbox.deliver elapsedNow delivery) := by
  cases delivery with
  | tell status => exact hok.tell hserial (.inl rfl)
  | supersede status => exact hok.dropTitle.tell hserial (.inr ⟨rfl, by simp⟩)
  | hold held =>
      rw [Mailbox.deliver, Mailbox.hold, Mailbox.replaceTitle_some]
      exact (hok.dropTitle.hold (by simp) hserial).wake

theorem delivered (hok : MailboxOk initial told read next elapsedNow mailbox)
    {delivery : Delivery} (hserial : delivery.serial = next) :
    MailboxOk initial (told ++ [delivery]) read (next + 1) elapsedNow
      (mailbox.delivered elapsedNow delivery) := by
  have hdelivered := hok.deliver hserial
  unfold Mailbox.delivered
  dsimp only
  split
  · exact hdelivered.shut
  · exact hdelivered

/-- The title that a full sleep was for is told, if it still waits. -/
theorem overslept (hok : MailboxOk initial told read next elapsedNow mailbox)
    {held : Option Held} {slept : Bool}
    (hslept : slept → ∀ title, held = some title → title.showsAt ≤ elapsedNow) :
    MailboxOk initial told read next elapsedNow (mailbox.overslept held slept) := by
  unfold Mailbox.overslept
  split
  next title =>
    split
    next hwaits =>
      simp only [Bool.and_eq_true, decide_eq_true_eq] at hwaits
      refine hok.change ?_ ?_ hok.statusesRead ?_ (by simp) fun found hfound => .inl hfound
      · simp [Mailbox.unread, hwaits.2]
      · exact fun hopen => ⟨hopen, by simp [ListenerEvent.status?]⟩
      · intro event hevent
        rcases List.mem_append.mp hevent with hearlier | hnow
        · exact .inl hearlier
        · exact .inr ⟨title, hwaits.2, List.mem_singleton.mp hnow, hslept hwaits.1 title rfl⟩
    next => exact hok
  next => exact hok

/-- The reader moves on to another part of its wait. -/
theorem moves (hok : MailboxOk initial told read next elapsedNow mailbox) {reader : Reader}
    (hslept : ∀ held, Mailbox.sleptFor { mailbox with reader := reader } = some held →
      mailbox.sleptFor = some held ∨ held.showsAt ≤ elapsedNow) :
    MailboxOk initial told read next elapsedNow { mailbox with reader := reader } :=
  hok.change (List.Sublist.refl _) (fun hopen => ⟨hopen, rfl⟩) hok.statusesRead
    (fun _ hevent => .inl hevent) (fun _ hheld => hheld) hslept

end MailboxOk

/-! ## One step of the reader -/

/-- The event a reader's step returns. -/
def ReaderReply.event? : ReaderReply → Option ListenerEvent
  | .told event => some event
  | _ => none

/-- A step of the reader: what it returns is read, and a title only once its
delay has passed. -/
structure Reads (initial : Option Held) (told : List Delivery) (read : List ListenerEvent)
    (next : Nat) (elapsedNow : Int) (mailbox : Mailbox) (reply : ReaderReply) : Prop where
  ok : MailboxOk initial told (read ++ reply.event?.toList) next elapsedNow mailbox
  due : ∀ title, reply = .told (.nowPlaying title) →
    ∃ held, Offered initial told held ∧ held.title = title ∧ held.showsAt ≤ elapsedNow

section

variable {initial : Option Held} {told : List Delivery} {read : List ListenerEvent} {next : Nat}
  {elapsedNow : Int} {mailbox : Mailbox}

theorem reads_nothing (hok : MailboxOk initial told read next elapsedNow mailbox)
    {reply : ReaderReply} (hreply : reply.event? = none) :
    Reads initial told read next elapsedNow mailbox reply where
  ok := by simpa [hreply] using hok
  due title htold := by simp [htold, ReaderReply.event?] at hreply

/-- An event that leaves the front of what is unread. -/
theorem reads_event (hok : MailboxOk initial told read next elapsedNow mailbox)
    {event : ListenerEvent} {taken : Mailbox} (hopen : mailbox.isShut = false)
    (hunread : mailbox.unread = event :: taken.unread) (hreader : taken.reader = .idle)
    (hqueue : mailbox.queue = event :: taken.queue ∨
      (mailbox.queue = [] ∧ taken.queue = [] ∧ event.status? = none))
    (hheld : ∀ held, taken.held = some held → mailbox.held = some held) :
    MailboxOk initial told (read ++ [event]) next elapsedNow taken := by
  have hstatuses : (read ++ [event] ++ taken.queue).filterMap ListenerEvent.status? =
      (read ++ mailbox.queue).filterMap ListenerEvent.status? := by
    rcases hqueue with hqueue | ⟨hqueue, htaken, hevent⟩
    · simp [hqueue]
    · simp [hqueue, htaken, hevent]
  refine hok.change (by simp [hunread]) (fun _ => ⟨hopen, hstatuses⟩) ?_ ?_ hheld ?_
  · rw [← hok.statuses hopen, ← hstatuses]
    exact (List.prefix_append _ taken.queue).filterMap _
  · intro other hother
    rcases hqueue with hqueue | ⟨-, htaken, -⟩
    · exact .inl (by simp [hqueue, hother])
    · simp [htaken] at hother
  · intro held hheld
    simp [Mailbox.sleptFor, hreader] at hheld

theorem turn_reads (hok : MailboxOk initial told read next elapsedNow mailbox) :
    Reads initial told read next elapsedNow (mailbox.turn elapsedNow).1
      (mailbox.turn elapsedNow).2 := by
  unfold Mailbox.turn
  split
  · exact reads_nothing (hok.moves (by simp [Mailbox.sleptFor])) rfl
  next hopen =>
    simp only [Bool.not_eq_true] at hopen
    unfold Mailbox.take
    cases hqueue : mailbox.queue with
    | cons event rest =>
        refine ⟨reads_event hok hopen (by simp [Mailbox.unread, hqueue]) rfl (.inl hqueue)
          (fun _ hheld => hheld), ?_⟩
        intro title htold
        obtain rfl : event = .nowPlaying title := ReaderReply.told.inj htold
        exact hok.queued title (by simp [hqueue])
    | nil =>
        cases hheld : mailbox.held with
        | none => exact reads_nothing (hok.moves (by simp [Mailbox.sleptFor])) rfl
        | some held =>
            by_cases hdue : held.showsAt ≤ elapsedNow
            · simp only [hdue, if_true]
              refine ⟨reads_event hok hopen (by simp [Mailbox.unread, hqueue, hheld]) rfl
                (.inr ⟨hqueue, rfl, rfl⟩) (by simp), ?_⟩
              intro title htold
              exact ⟨held, hok.held held hheld, ListenerEvent.nowPlaying.inj
                (ReaderReply.told.inj htold), hdue⟩
            · simp only [hdue, if_false]
              exact reads_nothing (hok.moves (by simp [Mailbox.sleptFor])) rfl

theorem readerStep_reads (hok : MailboxOk initial told read next elapsedNow mailbox)
    {action : ReaderAction} {mailbox' : Mailbox} {reply : ReaderReply}
    (hstep : mailbox.readerStep elapsedNow action = some (mailbox', reply)) :
    Reads initial told read next elapsedNow mailbox' reply := by
  have hkeeps : ∀ {reader : Reader}, (∀ held,
      Mailbox.sleptFor { mailbox with reader := reader } = some held →
        mailbox.sleptFor = some held ∨ held.showsAt ≤ elapsedNow) →
      some ({ mailbox with reader := reader }, ReaderReply.waits) = some (mailbox', reply) →
      Reads initial told read next elapsedNow mailbox' reply := by
    intro reader hslept heq
    obtain ⟨rfl, rfl⟩ := Prod.mk.inj (Option.some.inj heq)
    exact reads_nothing (hok.moves hslept) rfl
  cases action with
  | next =>
      cases hreader : mailbox.reader <;> simp only [Mailbox.readerStep, hreader] at hstep
      case idle =>
        obtain ⟨rfl, rfl⟩ := Prod.mk.inj (Option.some.inj hstep)
        exact turn_reads hok
      all_goals cases hstep
  -- A sleep ends when its title is due, which is what makes it readable in the next turn.
  | sleepEnds =>
      have hends : ∀ {held : Held} {reader : Reader},
          Mailbox.sleptFor { mailbox with reader := reader } = some held →
          (if held.showsAt ≤ elapsedNow then
            some ({ mailbox with reader := reader }, ReaderReply.waits) else none) =
              some (mailbox', reply) →
          Reads initial told read next elapsedNow mailbox' reply := by
        intro held reader hslept heq
        by_cases hdue : held.showsAt ≤ elapsedNow
        · rw [if_pos hdue] at heq
          refine hkeeps (fun found hfound => .inr ?_) heq
          obtain rfl := Option.some.inj (hslept.symm.trans hfound)
          exact hdue
        · rw [if_neg hdue] at heq
          cases heq
      cases hreader : mailbox.reader with
      | idle => simp [Mailbox.readerStep, hreader] at hstep
      | waiting held woken slept =>
          cases held <;> simp only [Mailbox.readerStep, hreader] at hstep
          case none => cases hstep
          case some held => exact hends rfl hstep
      | settling held slept cancelled =>
          cases held <;> simp only [Mailbox.readerStep, hreader] at hstep
          case none => cases hstep
          case some held => exact hends rfl hstep
  | wakes =>
      cases hreader : mailbox.reader <;> simp only [Mailbox.readerStep, hreader] at hstep
      case waiting held woken slept =>
        split at hstep
        · exact hkeeps (fun found hfound => .inl (by
            simpa [Mailbox.sleptFor, hreader] using hfound)) hstep
        · cases hstep
      all_goals cases hstep
  | settles =>
      cases hreader : mailbox.reader <;> simp only [Mailbox.readerStep, hreader] at hstep
      case settling held slept cancelled =>
        cases cancelled with
        | true =>
            obtain ⟨rfl, rfl⟩ := Prod.mk.inj (Option.some.inj hstep)
            exact reads_nothing (hok.moves (by simp [Mailbox.sleptFor])) rfl
        -- The sleep is over and was not cancelled: the reader turns, and reads what is due.
        | false =>
            have hturn : (mailbox.overslept held slept).turn elapsedNow = (mailbox', reply) :=
              Option.some.inj hstep
            have hok' := @MailboxOk.overslept _ _ _ _ _ _ hok held slept
              fun hslept title hheld =>
                hok.slept title (by simp [Mailbox.sleptFor, hreader, hslept, hheld])
            simpa [hturn] using turn_reads hok'
      all_goals cases hstep
  | cancels =>
      cases hreader : mailbox.reader <;> simp only [Mailbox.readerStep, hreader] at hstep
      case idle => cases hstep
      all_goals exact hkeeps (fun found hfound => .inl (by
        simpa [Mailbox.sleptFor, hreader] using hfound)) hstep

end

namespace Mailbox

theorem take_isShut (mailbox : Mailbox) (elapsedNow : Int) :
    (mailbox.take elapsedNow).1.isShut = mailbox.isShut := by
  unfold take
  split
  · rfl
  · split
    · split <;> rfl
    · rfl

theorem turn_isShut (mailbox : Mailbox) (elapsedNow : Int) :
    (mailbox.turn elapsedNow).1.isShut = mailbox.isShut := by
  have htake := mailbox.take_isShut elapsedNow
  unfold turn
  split
  · rfl
  · split <;> simp_all

theorem overslept_isShut (mailbox : Mailbox) (held : Option Held) (slept : Bool) :
    (mailbox.overslept held slept).isShut = mailbox.isShut := by
  unfold overslept
  split
  · split <;> rfl
  · rfl

/-- A reader never closes its subscription. -/
theorem readerStep_isShut {mailbox next : Mailbox} {elapsedNow : Int} {action : ReaderAction}
    {reply : ReaderReply} (hstep : mailbox.readerStep elapsedNow action = some (next, reply)) :
    next.isShut = mailbox.isShut := by
  have hturn : ∀ {other : Mailbox}, some (other.turn elapsedNow) = some (next, reply) →
      next.isShut = other.isShut := by
    intro other heq
    rw [← other.turn_isShut elapsedNow, Option.some.inj heq]
  cases action with
  | next =>
      simp only [readerStep] at hstep
      split at hstep
      · exact hturn hstep
      · cases hstep
  | settles =>
      simp only [readerStep] at hstep
      split at hstep
      · split at hstep
        · cases hstep; rfl
        · exact (hturn hstep).trans (overslept_isShut ..)
      · cases hstep
  | sleepEnds =>
      simp only [readerStep] at hstep
      split at hstep <;> try split at hstep
      all_goals cases hstep <;> rfl
  | wakes =>
      simp only [readerStep] at hstep
      split at hstep <;> try split at hstep
      all_goals cases hstep <;> rfl
  | cancels =>
      simp only [readerStep] at hstep
      split at hstep
      all_goals cases hstep <;> rfl

/-! ## What stays unread -/

theorem overslept_unread (mailbox : Mailbox) (held : Option Held) (slept : Bool) :
    (mailbox.overslept held slept).unread = mailbox.unread := by
  unfold overslept
  split
  · split
    next hwaits =>
      simp only [Bool.and_eq_true, decide_eq_true_eq] at hwaits
      simp [unread, hwaits.2]
    · rfl
  · rfl

theorem turn_unread (mailbox : Mailbox) (elapsedNow : Int) :
    mailbox.unread = (mailbox.turn elapsedNow).2.event?.toList ++
      (mailbox.turn elapsedNow).1.unread := by
  unfold turn
  split
  · rfl
  · cases hqueue : mailbox.queue with
    | cons event rest => simp [take, hqueue, unread, ReaderReply.event?]
    | nil =>
        cases hheld : mailbox.held with
        | none => simp [take, hqueue, hheld, unread, ReaderReply.event?]
        | some held =>
            by_cases hdue : held.showsAt ≤ elapsedNow <;>
              simp [take, hqueue, hheld, hdue, unread, ReaderReply.event?]

/-- A reader takes what it returns from the front, and nothing else. -/
theorem readerStep_unread {mailbox next : Mailbox} {elapsedNow : Int} {action : ReaderAction}
    {reply : ReaderReply} (hstep : mailbox.readerStep elapsedNow action = some (next, reply)) :
    mailbox.unread = reply.event?.toList ++ next.unread := by
  have hturn : ∀ {other : Mailbox}, some (other.turn elapsedNow) = some (next, reply) →
      other.unread = reply.event?.toList ++ next.unread := by
    intro other heq
    rw [other.turn_unread elapsedNow, Option.some.inj heq]
  cases action with
  | next =>
      simp only [readerStep] at hstep
      split at hstep
      · exact hturn hstep
      · cases hstep
  | settles =>
      simp only [readerStep] at hstep
      split at hstep
      · split at hstep
        · cases hstep; rfl
        · exact (overslept_unread ..).symm.trans (hturn hstep)
      · cases hstep
  | sleepEnds =>
      simp only [readerStep] at hstep
      split at hstep <;> try split at hstep
      all_goals cases hstep <;> rfl
  | wakes =>
      simp only [readerStep] at hstep
      split at hstep <;> try split at hstep
      all_goals cases hstep <;> rfl
  | cancels =>
      simp only [readerStep] at hstep
      split at hstep
      all_goals cases hstep <;> rfl

/-- The title waits, and a newer title or a superseding status told now drops it. -/
def Drops (mailbox : Mailbox) (elapsedNow : Int) (delivery : Delivery) (title : NowPlaying) :
    Prop :=
  (∀ status, delivery ≠ .tell status) ∧
    ∃ held, mailbox.held = some held ∧ held.title = title ∧ elapsedNow < held.showsAt

theorem replaceTitle_keeps {mailbox : Mailbox} {title : NowPlaying}
    (hunread : .nowPlaying title ∈ mailbox.unread) (elapsedNow : Int) :
    .nowPlaying title ∈ (mailbox.replaceTitle elapsedNow none).queue ∨
      ∃ held, mailbox.held = some held ∧ held.title = title ∧ elapsedNow < held.showsAt := by
  cases hheld : mailbox.held with
  | none => exact .inl (by simpa [unread, replaceTitle, hheld] using hunread)
  | some held =>
      by_cases hdue : held.showsAt ≤ elapsedNow
      · exact .inl (by simpa [unread, replaceTitle, hheld, hdue] using hunread)
      · simp only [unread, hheld, Option.toList_some, List.map_cons, List.map_nil,
          List.mem_append, List.mem_singleton, ListenerEvent.nowPlaying.injEq] at hunread
        rcases hunread with hqueued | rfl
        · exact .inl (by simpa [replaceTitle, hheld, hdue] using hqueued)
        · exact .inr ⟨held, rfl, rfl, Int.not_le.mp hdue⟩

/-- A delivery keeps an unread title unless it drops or disconnects. -/
theorem delivered_keeps {mailbox : Mailbox} {elapsedNow : Int} {title : NowPlaying}
    (hunread : .nowPlaying title ∈ mailbox.unread) (delivery : Delivery) :
    .nowPlaying title ∈ (mailbox.delivered elapsedNow delivery).unread ∨
      mailbox.Drops elapsedNow delivery title ∨
      pendingLimit < (mailbox.deliver elapsedNow delivery).backlog := by
  have hkeeps : .nowPlaying title ∈ (mailbox.deliver elapsedNow delivery).unread ∨
      mailbox.Drops elapsedNow delivery title := by
    cases delivery with
    | tell status =>
        refine .inl ?_
        simp only [deliver, tell, unread, wake_queue, wake_held, List.mem_append] at hunread ⊢
        tauto
    | supersede status =>
        rcases replaceTitle_keeps hunread elapsedNow with hqueued | hwaits
        · refine .inl ?_
          simp [deliver, supersede, tell, unread, hqueued]
        · exact .inr ⟨by simp, hwaits⟩
    | hold held =>
        rcases replaceTitle_keeps hunread elapsedNow with hqueued | hwaits
        · refine .inl ?_
          simp [deliver, hold, replaceTitle_some, unread, hqueued]
        · exact .inr ⟨by simp, hwaits⟩
  unfold delivered
  dsimp only
  split
  next hover => exact .inr (.inr hover)
  next => exact hkeeps.imp_right .inl

end Mailbox

end RetroStation.Streaming
