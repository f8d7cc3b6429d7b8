import LockBench.Proofs.Host.Transcripts
import LockBench.Proofs.Session.Requests
import Mathlib.Data.List.Forall2

/-!
# What is said in a run

A run speaks to its user through the notes of its journal and through the
heading of its session.  What it writes itself to the console, and what it adds
to files, comes from what it says and from nothing else, in the order in which
it is said.
-/

namespace LockBench

open LockBench.Action

/-! ## The console and the log in a transcript -/

/-- A text on the console, by the stream that it is written to. -/
inductive Written
  | output (text : String)
  | error (text : String)
  deriving DecidableEq, Repr

/-- What is added to the end of a file. -/
structure Addition where
  /-- The file. -/
  file : Path
  /-- What is added. -/
  content : ByteArray

instance : DecidableEq Addition := fun one other =>
  decidable_of_iff
    (one.file = other.file ∧ one.content.data = other.content.data)
    (by cases one; cases other; simp [ByteArray.ext_iff])

namespace Exchange

/-- The text on the console that an exchange is about. -/
def written? : Exchange -> Option Written
  | ⟨.print text, _⟩ => some (.output text)
  | ⟨.printError text, _⟩ => some (.error text)
  | _ => none

/-- What an exchange is to add to a file. -/
def addition? : Exchange -> Option Addition
  | ⟨.append file content, _⟩ => some ⟨file, content⟩
  | _ => none

end Exchange

/-- The console after a transcript, in order, without what processes write to
it. -/
def console (transcript : List Exchange) : List Written :=
  transcript.filterMap Exchange.written?

/-- What is added to files in a transcript, in order. -/
def additions (transcript : List Exchange) : List Addition :=
  transcript.filterMap Exchange.addition?

@[simp] theorem console_append (early late : List Exchange) :
    console (early ++ late) = console early ++ console late :=
  List.filterMap_append

@[simp] theorem additions_append (early late : List Exchange) :
    additions (early ++ late) = additions early ++ additions late :=
  List.filterMap_append

/-- A request that neither writes to the console nor adds to a file. -/
def Request.IsSilent : Request -> Prop
  | .append _ _ => False
  | .print _ => False
  | .printError _ => False
  | _ => True

theorem Request.IsSilent.exchange
    {request : Request}
    (silent : request.IsSilent)
    (answer : request.Answer) :
    Exchange.written? ⟨request, answer⟩ = none ∧
      Exchange.addition? ⟨request, answer⟩ = none := by
  cases request with
  | append file content => exact silent.elim
  | print text => exact silent.elim
  | printError text => exact silent.elim
  | _ => exact ⟨rfl, rfl⟩

/-! ## Utterances -/

/-- What is said to the user of a run. -/
inductive Utterance
  /-- An entry of the journal. -/
  | note (entry : Entry)
  /-- The heading of a session. -/
  | heading
      (fixture : String)
      (suites : List Suite)
      (operations : List Operation)

namespace Utterance

/-- A text on a stream of the console, unless it is empty. -/
def textOn
    (stream : String -> Written)
    (text : String) : List Written :=
  if text.isEmpty then [] else [stream text]

@[simp] theorem mem_textOn_iff
    {stream : String -> Written}
    {text : String}
    {written : Written} :
    written ∈ textOn stream text ↔ text ≠ "" ∧ written = stream text := by
  rw [textOn]
  split <;> simp_all

/-- What the console shows of an utterance. -/
def shown
    (journal : Journal) : Utterance -> List Written
  | .note entry =>
    textOn .output (entry.stdout journal.colored) ++
      textOn .error (entry.stderr journal.verbosity journal.colored)
  | .heading fixture suites operations =>
    [.output (RunTask.headerText journal.colored fixture suites operations)]

/-- The records of an utterance for the log. -/
def records : Utterance -> List String
  | .note entry => entry.records
  | .heading _ _ _ => []

end Utterance

namespace Journal

/-- A record is added to the log as a line with some time. -/
def Adds
    (journal : Journal)
    (record : String)
    (addition : Addition) : Prop :=
  addition.file ∈ journal.file ∧
    ∃ time, addition.content = (line time record).toUTF8

/-- The records that are kept, which are none where there is no log. -/
def kept
    (journal : Journal)
    (records : List String) : List String :=
  match journal.file with
  | none => []
  | some _ => records

@[simp] theorem kept_nil (journal : Journal) : journal.kept [] = [] := by
  rw [kept]
  cases journal.file <;> rfl

theorem kept_append
    (journal : Journal)
    (early late : List String) :
    journal.kept (early ++ late) = journal.kept early ++ journal.kept late := by
  rw [kept, kept, kept]
  cases journal.file <;> rfl

end Journal

/-- A transcript utters what is said: the console shows what is to be shown of
it, and a line is added to the log for each of its records. -/
structure Utters
    (journal : Journal)
    (said : List Utterance)
    (transcript : List Exchange) : Prop where
  /-- Nothing but what is said is on the console. -/
  console_eq : console transcript = said.flatMap (Utterance.shown journal)
  /-- Nothing but what is said is added to a file. -/
  logs : List.Forall₂ journal.Adds
    (journal.kept (said.flatMap Utterance.records)) (additions transcript)

namespace Utters

variable {journal : Journal}

theorem nothing
    {transcript : List Exchange}
    (noText : console transcript = [])
    (noAddition : additions transcript = []) :
    Utters journal [] transcript where
  console_eq := noText
  logs := by
    rw [noAddition, List.flatMap_nil, Journal.kept_nil]
    exact .nil

theorem append
    {said more : List Utterance}
    {early late : List Exchange}
    (uttersEarly : Utters journal said early)
    (uttersLate : Utters journal more late) :
    Utters journal (said ++ more) (early ++ late) where
  console_eq := by
    rw [console_append, uttersEarly.console_eq, uttersLate.console_eq,
      List.flatMap_append]
  logs := by
    rw [List.flatMap_append, Journal.kept_append, additions_append]
    exact List.rel_append uttersEarly.logs uttersLate.logs

end Utters

/-- All that is said in a transcript is allowed. -/
def Tells
    (journal : Journal)
    (allowed : Utterance -> Prop)
    (transcript : List Exchange) : Prop :=
  ∃ said, Utters journal said transcript ∧ ∀ one ∈ said, allowed one

namespace Tells

variable {journal : Journal} {allowed wider : Utterance -> Prop}
  {transcript early late : List Exchange}

theorem nothing
    (noText : console transcript = [])
    (noAddition : additions transcript = []) :
    Tells journal allowed transcript :=
  ⟨[], .nothing noText noAddition, nofun⟩

theorem append
    (tellsEarly : Tells journal allowed early)
    (tellsLate : Tells journal allowed late) :
    Tells journal allowed (early ++ late) := by
  obtain ⟨said, utters, each⟩ := tellsEarly
  obtain ⟨more, uttersMore, eachMore⟩ := tellsLate
  exact ⟨said ++ more, utters.append uttersMore,
    List.forall_mem_append.mpr ⟨each, eachMore⟩⟩

theorem mono
    (tells : Tells journal allowed transcript)
    (implies : ∀ one, allowed one -> wider one) :
    Tells journal wider transcript := by
  obtain ⟨said, utters, each⟩ := tells
  exact ⟨said, utters, fun one member => implies one (each one member)⟩

end Tells

/-! ## What actions say -/

namespace Action

variable {journal : Journal} {allowed : Utterance -> Prop}

/-- All that an action says is allowed, whatever it is answered. -/
def Speaks
    (journal : Journal)
    (allowed : Utterance -> Prop)
    (action : Action α) : Prop :=
  ∀ transcript result, action.Yields transcript result ->
    Tells journal allowed transcript

theorem Speaks.mono
    {action : Action α}
    {wider : Utterance -> Prop}
    (speaks : action.Speaks journal allowed)
    (implies : ∀ one, allowed one -> wider one) :
    action.Speaks journal wider :=
  fun transcript result yields => (speaks transcript result yields).mono implies

theorem speaks_pure (result : α) :
    (pure result : Action α).Speaks journal allowed := by
  intro transcript other yields
  obtain ⟨rfl, -⟩ := yields_pure_iff.mp yields
  exact .nothing rfl rfl

theorem Speaks.bind
    {action : Action α}
    {next : α -> Action β}
    (first : action.Speaks journal allowed)
    (second : ∀ value, (next value).Speaks journal allowed) :
    (action >>= next).Speaks journal allowed := by
  intro transcript result yields
  obtain ⟨value, early, late, yieldsFirst, yieldsSecond, rfl⟩ :=
    yields_bind_iff.mp yields
  exact (first early value yieldsFirst).append
    (second value late result yieldsSecond)

/-- A silent request says nothing. -/
theorem speaks_request
    {request : Request}
    (silent : request.IsSilent) :
    (Action.request request).Speaks journal allowed := by
  intro transcript answer yields
  obtain rfl := yields_request_iff.mp yields
  obtain ⟨noText, noAddition⟩ := silent.exchange answer
  exact .nothing (by simp [console, noText]) (by simp [additions, noAddition])

/-- An action whose requests are silent says nothing. -/
theorem AsksOnly.speaks
    {action : Action α}
    (asks : action.AsksOnly Request.IsSilent) :
    action.Speaks journal allowed := by
  induction action with
  | done result => exact speaks_pure result
  | ask request next inductionHypothesis =>
      exact (speaks_request asks.1).bind fun answer =>
        inductionHypothesis answer (asks.2 answer)

theorem speaks_forM
    {items : List α}
    {action : α -> Action PUnit}
    (each : ∀ item, (action item).Speaks journal allowed) :
    (items.forM action).Speaks journal allowed := by
  induction items with
  | nil => exact speaks_pure _
  | cons item rest inductionHypothesis =>
      exact (each item).bind fun _ => inductionHypothesis

/-! ### Actions that may fail -/

theorem Speaks.run_bind
    {action : ExceptT ε Action α}
    {next : α -> ExceptT ε Action β}
    (first : action.run.Speaks journal allowed)
    (second : ∀ value, (next value).run.Speaks journal allowed) :
    (action >>= next).run.Speaks journal allowed := by
  rw [ExceptT.run_bind]
  refine first.bind ?_
  rintro (failure | value)
  · exact speaks_pure _
  · exact second value

theorem Speaks.run_lift
    {action : Action α}
    (speaks : action.Speaks journal allowed) :
    (liftM action : ExceptT ε Action α).run.Speaks journal allowed :=
  speaks.bind fun _ => speaks_pure _

theorem speaks_attempt
    {cause : ε -> Failure}
    {action : Action (Except ε α)}
    (speaks : action.Speaks journal allowed) :
    (Attempt.lift cause action).run.Speaks journal allowed := by
  refine speaks.bind ?_
  rintro (failure | value) <;> exact speaks_pure _

end Action

/-! ## Notes and headings -/

section Notes

variable {journal : Journal} {transcript : List Exchange}

/-- What is emitted is on the console, unless it is empty. -/
theorem console_of_emit
    {write : String -> Action Unit}
    {stream : String -> Written}
    (writes : ∀ text transcript, (write text).Yields transcript () ->
      console transcript = [stream text] ∧ additions transcript = [])
    {text : String}
    (yields : (Journal.emit write text).Yields transcript ()) :
    console transcript = Utterance.textOn stream text ∧
      additions transcript = [] := by
  rw [Journal.emit] at yields
  rw [Utterance.textOn]
  split at yields
  · rename_i isEmpty
    obtain ⟨rfl, -⟩ := yields_pure_iff.mp yields
    rw [if_pos isEmpty]
    exact ⟨rfl, rfl⟩
  · rename_i notEmpty
    rw [if_neg notEmpty]
    exact writes text transcript yields

/-- A record is added to the log, where there is one. -/
theorem adds_of_record
    {record : String}
    (yields : (journal.record record).Yields transcript ()) :
    console transcript = [] ∧
      List.Forall₂ journal.Adds (journal.kept [record])
        (additions transcript) := by
  rw [Journal.record] at yields
  rw [Journal.kept]
  cases file_eq : journal.file with
  | none =>
      rw [file_eq] at yields
      obtain ⟨rfl, -⟩ := yields_pure_iff.mp yields
      exact ⟨rfl, .nil⟩
  | some file =>
      rw [file_eq] at yields
      obtain ⟨time, _, _, told, adding, rfl⟩ := yields_bind_iff.mp yields
      obtain rfl := yields_request_iff.mp told
      obtain ⟨_, _, _, added, discarded, rfl⟩ := yields_bind_iff.mp adding
      obtain rfl := yields_request_iff.mp added
      obtain ⟨rfl, -⟩ := yields_pure_iff.mp discarded
      exact ⟨rfl, .cons ⟨file_eq, time, rfl⟩ .nil⟩

theorem adds_of_records
    {records : List String}
    (yields : (records.forM journal.record).Yields transcript ()) :
    console transcript = [] ∧
      List.Forall₂ journal.Adds (journal.kept records)
        (additions transcript) := by
  induction records generalizing transcript with
  | nil =>
      obtain ⟨rfl, -⟩ := yields_pure_iff.mp yields
      rw [Journal.kept_nil]
      exact ⟨rfl, .nil⟩
  | cons record rest inductionHypothesis =>
      obtain ⟨_, early, late, first, others, rfl⟩ := yields_bind_iff.mp yields
      obtain ⟨noText, adds⟩ := adds_of_record first
      obtain ⟨noMoreText, addsMore⟩ := inductionHypothesis others
      rw [console_append, additions_append, noText, noMoreText,
        ← List.singleton_append, Journal.kept_append]
      exact ⟨rfl, List.rel_append adds addsMore⟩

/-- What is displayed of an entry is its text, on either stream. -/
theorem console_of_display
    {entry : Entry}
    (yields : (journal.display entry).Yields transcript ()) :
    console transcript = (Utterance.note entry).shown journal ∧
      additions transcript = [] := by
  obtain ⟨_, printing, reporting, printed, reported, rfl⟩ :=
    yields_bind_iff.mp yields
  have prints : ∀ text transcript, (Action.print text).Yields transcript () ->
      console transcript = [.output text] ∧ additions transcript = [] := by
    intro text transcript yields
    obtain rfl := yields_request_iff.mp yields
    exact ⟨rfl, rfl⟩
  have printsErrors : ∀ text transcript,
      (Action.printError text).Yields transcript () ->
        console transcript = [.error text] ∧ additions transcript = [] := by
    intro text transcript yields
    obtain rfl := yields_request_iff.mp yields
    exact ⟨rfl, rfl⟩
  obtain ⟨output_eq, noAddition⟩ := console_of_emit prints printed
  obtain ⟨error_eq, noMoreAddition⟩ := console_of_emit printsErrors reported
  rw [console_append, additions_append, output_eq, error_eq, noAddition,
    noMoreAddition]
  exact ⟨rfl, rfl⟩

/-- A note utters its entry, whether it is displayed or recorded first. -/
theorem utters_note
    {entry : Entry}
    (yields : (journal.note entry).Yields transcript ()) :
    Utters journal [.note entry] transcript := by
  rw [Journal.note] at yields
  split at yields
  · obtain ⟨_, _, _, displayed, recorded, rfl⟩ := yields_bind_iff.mp yields
    obtain ⟨shown_eq, noAddition⟩ := console_of_display displayed
    obtain ⟨noText, adds⟩ := adds_of_records recorded
    constructor
    · simp [noText, shown_eq]
    · simpa [noAddition, Utterance.records] using adds
  · obtain ⟨_, _, _, recorded, displayed, rfl⟩ := yields_bind_iff.mp yields
    obtain ⟨shown_eq, noAddition⟩ := console_of_display displayed
    obtain ⟨noText, adds⟩ := adds_of_records recorded
    constructor
    · simp [noText, shown_eq]
    · simpa [noAddition, Utterance.records] using adds

end Notes

namespace Action

variable {journal : Journal} {allowed : Utterance -> Prop}

theorem speaks_note
    {entry : Entry}
    (isAllowed : allowed (.note entry)) :
    (journal.note entry).Speaks journal allowed :=
  fun _ _ yields =>
    ⟨_, utters_note yields, List.forall_mem_singleton.mpr isAllowed⟩

theorem speaks_heading
    {fixture : String}
    {suites : List Suite}
    {operations : List Operation}
    (isAllowed : allowed (.heading fixture suites operations)) :
    (Action.print (RunTask.headerText journal.colored fixture suites
      operations)).Speaks journal allowed := by
  intro transcript _ yields
  obtain rfl := yields_request_iff.mp yields
  refine ⟨[.heading fixture suites operations], ⟨rfl, ?_⟩,
    List.forall_mem_singleton.mpr isAllowed⟩
  simp [Utterance.records, additions, Exchange.addition?]

end Action
end LockBench
