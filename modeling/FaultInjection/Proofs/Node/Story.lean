import FaultInjection.Node.Membership

/-!
The story of a feed: heartbeats that offer their errors to it, and an owner who reads them or throws
the feed away. What is read comes in order, and an error is missed only if it finds the feed full or
gone.
-/

namespace FaultInjection

/-! Reading a feed -/

namespace ErrorFeed

theorem read_isOpen (feed : ErrorFeed) : feed.read.2.isOpen = feed.isOpen := by
  unfold read
  split <;> rfl

def reads (feed : ErrorFeed) : Nat → List FeedAnswer
  | 0 => []
  | times + 1 => feed.read.1 :: feed.read.2.reads times

/-- All errors that are waiting are read before the end of the feed is told. -/
theorem reads_all (pending : List Error) (isOpen : Bool) :
    (⟨pending, isOpen⟩ : ErrorFeed).reads (pending.length + 1) =
      pending.map .error ++ [if isOpen then .nothing else .closed] := by
  induction pending with
  | nil => rfl
  | cons error rest ih => exact congrArg (List.cons (FeedAnswer.error error)) ih

end ErrorFeed

/-! The story of a feed -/

inductive FeedEvent where
  /-- A heartbeat, the errors that it finds waiting if the feed is still there, and its own error if
  it fails. -/
  | beat (waiting : Option (List Error)) (error : Option Error)
  | read (errors : List Error)
  | thrownAway

namespace FeedEvent

def failed? : FeedEvent → Option Error
  | beat _ error => error
  | _ => none

def admitted? : FeedEvent → Option Error
  | beat (some pending) error => if pending.length < ErrorFeed.capacity then error else none
  | _ => none

theorem admitted_sublist (event : FeedEvent) :
    event.admitted?.toList.Sublist event.failed?.toList := by
  cases event with
  | beat waiting error =>
      cases waiting with
      | none => exact List.nil_sublist _
      | some pending =>
          simp only [admitted?, failed?]
          split
          · exact List.Sublist.refl _
          · exact List.nil_sublist _
  | _ => exact List.nil_sublist _

def errorsRead : FeedEvent → List Error
  | read errors => errors
  | _ => []

inductive Moves : FeedEvent → Option (List Error) → Option (List Error) → Prop
  | sent (waiting : Option (List Error)) : Moves (beat waiting none) waiting waiting
  | admitted (pending : List Error) (error : Error)
      (room : pending.length < ErrorFeed.capacity) :
      Moves (beat (some pending) (some error)) (some pending) (some (pending ++ [error]))
  | refused (pending : List Error) (error : Error)
      (full : ¬ pending.length < ErrorFeed.capacity) :
      Moves (beat (some pending) (some error)) (some pending) (some pending)
  | unheard (error : Error) : Moves (beat none (some error)) none none
  | read (errors rest : List Error) : Moves (read errors) (some (errors ++ rest)) (some rest)
  | readNone : Moves (read []) none none
  | thrownAway (waiting : Option (List Error)) : Moves thrownAway waiting none

theorem Moves.beat_waiting {waiting before after : Option (List Error)} {error : Option Error}
    (moves : Moves (beat waiting error) before after) : waiting = before := by
  cases moves <;> rfl

theorem Moves.of_none {event : FeedEvent} {after : Option (List Error)}
    (moves : event.Moves none after) :
    after = none ∧ event.admitted? = none ∧ event.errorsRead = [] := by
  cases moves <;> exact ⟨rfl, rfl, rfl⟩

/-- What was waiting and what is admitted is what is read, and then what waits afterwards. -/
theorem Moves.balance {event : FeedEvent} {pending left : List Error}
    (moves : event.Moves (some pending) (some left)) :
    pending ++ event.admitted?.toList = event.errorsRead ++ left := by
  cases moves with
  | sent => simp [admitted?, errorsRead]
  | admitted _ error room => simp [admitted?, errorsRead, room]
  | refused _ error full => simp [admitted?, errorsRead, full]
  | read errors rest => simp [admitted?, errorsRead]

theorem Moves.gone {event : FeedEvent} {pending : List Error}
    (moves : event.Moves (some pending) none) : event = FeedEvent.thrownAway := by
  cases moves
  rfl

/-- No more errors wait than the feed has room for. -/
theorem Moves.bounded {event : FeedEvent} {before after : Option (List Error)}
    (moves : event.Moves before after)
    (bounded : ∀ pending ∈ before, pending.length ≤ ErrorFeed.capacity) :
    ∀ pending ∈ after, pending.length ≤ ErrorFeed.capacity := by
  cases moves with
  | sent waiting => exact bounded
  | admitted pending error room =>
      rintro _ ⟨⟩
      rw [List.length_append]
      exact room
  | refused pending error full => exact bounded
  | unheard error => exact nofun
  | read errors rest =>
      rintro _ ⟨⟩
      have longer := bounded _ rfl
      rw [List.length_append] at longer
      omega
  | readNone => exact nofun
  | thrownAway waiting => exact nofun

end FeedEvent

abbrev FeedStory := List FeedEvent

namespace FeedStory

def failures (story : FeedStory) : List Error := story.filterMap (·.failed?)

def admitted (story : FeedStory) : List Error := story.filterMap (·.admitted?)

def received (story : FeedStory) : List Error := story.flatMap (·.errorsRead)

@[simp] theorem failures_append (earlier later : FeedStory) :
    failures (earlier ++ later) = failures earlier ++ failures later := List.filterMap_append

@[simp] theorem admitted_append (earlier later : FeedStory) :
    admitted (earlier ++ later) = admitted earlier ++ admitted later := List.filterMap_append

@[simp] theorem received_append (earlier later : FeedStory) :
    received (earlier ++ later) = received earlier ++ received later := List.flatMap_append

@[simp] theorem failures_cons (event : FeedEvent) (rest : FeedStory) :
    failures (event :: rest) = event.failed?.toList ++ failures rest := by
  cases found : event.failed? <;> simp [failures, found]

@[simp] theorem admitted_cons (event : FeedEvent) (rest : FeedStory) :
    admitted (event :: rest) = event.admitted?.toList ++ admitted rest := by
  cases found : event.admitted? <;> simp [admitted, found]

@[simp] theorem received_cons (event : FeedEvent) (rest : FeedStory) :
    received (event :: rest) = event.errorsRead ++ received rest := List.flatMap_cons

inductive Follows : FeedStory → Option (List Error) → Option (List Error) → Prop
  | nil (waiting : Option (List Error)) : Follows [] waiting waiting
  | cons {event : FeedEvent} {rest : FeedStory} {before middle after : Option (List Error)}
      (first : event.Moves before middle) (others : Follows rest middle after) :
      Follows (event :: rest) before after

variable {story : FeedStory} {before after : Option (List Error)}

theorem Follows.single {event : FeedEvent} (moves : event.Moves before after) :
    Follows [event] before after := .cons moves (.nil after)

theorem Follows.append {later : FeedStory} {last : Option (List Error)}
    (first : Follows story before after) (second : Follows later after last) :
    Follows (story ++ later) before last := by
  induction first with
  | nil => exact second
  | cons moves _ ih => exact .cons moves (ih second)

theorem Follows.split {past future : FeedStory} {event : FeedEvent}
    (follows : Follows (past ++ event :: future) before after) :
    ∃ found left, Follows past before found ∧ event.Moves found left ∧
      Follows future left after := by
  induction past generalizing before with
  | nil =>
      cases follows with
      | cons moves rest => exact ⟨_, _, .nil _, moves, rest⟩
  | cons first others ih =>
      cases follows with
      | cons moves rest =>
          obtain ⟨found, left, earlier, here, later⟩ := ih rest
          exact ⟨found, left, .cons moves earlier, here, later⟩

/-- Once a feed is thrown away nothing is admitted to it or read from it. -/
theorem Follows.of_none (follows : Follows story none after) :
    after = none ∧ admitted story = [] ∧ received story = [] := by
  induction story with
  | nil =>
      cases follows
      exact ⟨rfl, rfl, rfl⟩
  | cons event rest ih =>
      cases follows with
      | cons moves others =>
          obtain ⟨rfl, unadmitted, unread⟩ := moves.of_none
          obtain ⟨ended, nothing, silent⟩ := ih others
          simp [ended, unadmitted, unread, nothing, silent]

/-- What was waiting and what was admitted since is what was read, in this order, and then what
waits at the end. -/
theorem Follows.balance {pending : List Error} (follows : Follows story (some pending) after) :
    ∃ left, pending ++ admitted story = received story ++ left ∧ ∀ last ∈ after, left = last := by
  induction story generalizing pending with
  | nil =>
      cases follows
      exact ⟨pending, by simp [admitted, received], by simp⟩
  | cons event rest ih =>
      cases follows with
      | @cons _ _ _ middle _ moves others =>
          cases middle with
          | none =>
              -- the feed is thrown away here, with all that is waiting in it
              cases moves.gone
              obtain ⟨rfl, nothing, silent⟩ := others.of_none
              refine ⟨pending, ?_, nofun⟩
              simp [FeedEvent.admitted?, FeedEvent.errorsRead, nothing, silent]
          | some waits =>
              obtain ⟨left, balanced, last⟩ := ih others
              refine ⟨left, ?_, last⟩
              calc pending ++ admitted (event :: rest)
                  = (pending ++ event.admitted?.toList) ++ admitted rest := by simp
                _ = event.errorsRead ++ (waits ++ admitted rest) := by simp [moves.balance]
                _ = received (event :: rest) ++ left := by simp [balanced]

theorem Follows.bounded (follows : Follows story before after)
    (bounded : ∀ pending ∈ before, pending.length ≤ ErrorFeed.capacity) :
    ∀ pending ∈ after, pending.length ≤ ErrorFeed.capacity := by
  induction follows with
  | nil => exact bounded
  | cons moves _ ih => exact ih (moves.bounded bounded)

/-- A feed is gone just if it has been thrown away. -/
theorem Follows.gone_iff {pending : List Error} (follows : Follows story (some pending) after) :
    after = none ↔ .thrownAway ∈ story := by
  constructor
  · intro gone
    induction story generalizing pending with
    | nil =>
        cases follows
        cases gone
    | cons event rest ih =>
        cases follows with
        | @cons _ _ _ middle _ moves others =>
            cases middle with
            | none =>
                cases moves.gone
                exact List.mem_cons_self
            | some waits => exact List.mem_cons_of_mem event (ih others)
  · intro thrown
    obtain ⟨past, future, rfl⟩ := List.append_of_mem thrown
    obtain ⟨found, left, _, moves, later⟩ := follows.split
    cases moves
    exact later.of_none.1

theorem admitted_sublist (story : FeedStory) : (admitted story).Sublist (failures story) := by
  induction story with
  | nil => exact List.Sublist.refl []
  | cons event rest ih =>
      rw [admitted_cons, failures_cons]
      exact event.admitted_sublist.append ih

/-- What becomes of the errors of a story, when some are waiting at its end. -/
structure Accounted (story : FeedStory) (waiting : Option (List Error)) : Prop where
  /-- What is read has failed, in the same order and each no more than once. -/
  inOrder : (received story).Sublist (failures story)
  kept : ∃ left, admitted story = received story ++ left ∧ ∀ pending ∈ waiting, left = pending
  /-- An error is missed if the feed is gone, or full of errors that have not been read. -/
  missed : ∀ past found error future, story = past ++ .beat found (some error) :: future →
    (FeedEvent.beat found (some error)).admitted? = none →
      .thrownAway ∈ past ∨ ∃ pending, found = some pending ∧
        pending.length = ErrorFeed.capacity ∧ admitted past = received past ++ pending
  gone : waiting = none ↔ .thrownAway ∈ story

theorem Follows.accounted (follows : Follows story (some []) after) : Accounted story after := by
  obtain ⟨left, balanced, last⟩ := follows.balance
  rw [List.nil_append] at balanced
  constructor
  case inOrder =>
    have read : (received story).Sublist (admitted story) := by
      rw [balanced]
      exact List.sublist_append_left _ left
    exact read.trans (admitted_sublist story)
  case kept => exact ⟨left, balanced, last⟩
  case missed =>
    rintro past found error future rfl refused
    obtain ⟨found, left, earlier, moves, _⟩ := follows.split
    cases moves.beat_waiting
    cases found with
    | none => exact Or.inl (earlier.gone_iff.mp rfl)
    | some pending =>
        obtain ⟨left, balanced, last⟩ := earlier.balance
        cases last pending rfl
        have full : ¬ pending.length < ErrorFeed.capacity := by
          intro room
          simp [FeedEvent.admitted?, room] at refused
        have bounded := earlier.bounded (by simp) pending rfl
        exact Or.inr ⟨pending, rfl, by omega, by simpa using balanced⟩
  case gone => exact follows.gone_iff

end FeedStory

end FaultInjection
