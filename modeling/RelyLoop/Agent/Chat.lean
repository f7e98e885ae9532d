import Mathlib.Data.List.Sort
import RelyLoop.Agent.ToolGroups
import RelyLoop.Concurrency.RelyGuarantee

/-!
# Turns on one conversation

`send_user_message` with the table of the conversation's rows. Several turns may run
at a time, each in a database session of its own. A row is stamped with the start of
the transaction that inserts it, which may have begun long before its commit.
-/

namespace RelyLoop.Agent

open Concurrency Python

/-- `TITLE_MAX_LENGTH`. -/
def titleMaxLength : ℕ := 80

/-- `_derive_title`. -/
def deriveTitle (userText : String) : Option String :=
  let cleaned := strip userText.toList
  if cleaned.isEmpty then none
  else if cleaned.length ≤ titleMaxLength then some (String.ofList cleaned)
  else some (String.ofList ((cleaned.take (titleMaxLength - 3)).rdropWhile isWhitespace) ++ "...")

/-- A row of the `conversations` table. -/
structure Conversation where
  title : Option String
  deriving DecidableEq, Repr

/-- The database as the turns on one conversation see it. -/
structure ChatWorld (T : Type) where
  /-- The time of the database server. -/
  clock : ℕ
  /-- The conversation, if it exists and is not deleted. -/
  conversation : Option Conversation
  /-- The committed rows, the newest commit first. -/
  rows : List Message
  /-- The start of the transaction that a task's session is in. -/
  began : T → Option ℕ
  /-- The tool calls that a task's turn has written and not yet answered. It is
  recorded for the proofs: no operation reads it. -/
  unanswered : T → List String

/-- What a turn does with the database. -/
inductive ChatOp where
  /-- `repo.get_conversation`. -/
  | getConversation
  /-- `repo.create_message`, the new title of the conversation if there is one, and
  the commit. -/
  | createMessage (body : Body) (title : Option String)
  /-- `repo.list_messages`. -/
  | listMessages
  /-- A statement or a commit of a tool. A rollback ends the transaction as well. -/
  | session (step : SessionStep)

/-- What an operation answers. -/
@[reducible] def ChatOp.Res : ChatOp → Type
  | .getConversation => Option Conversation
  | .createMessage _ _ => Unit
  | .listMessages => List Message
  | .session _ => Unit

/-- The order of `list_messages`. -/
def Precedes (message message' : Message) : Prop :=
  message.createdAt < message'.createdAt ∨
    message.createdAt = message'.createdAt ∧ message.id ≤ message'.id

instance (message : Message) : DecidablePred (Precedes message) :=
  fun _ => inferInstanceAs (Decidable (_ ∨ _))

instance : DecidableRel Precedes := fun message => inferInstanceAs (DecidablePred (Precedes message))

namespace ChatWorld

variable {T : Type} (w : ChatWorld T)

/-- The answer of `list_messages`. -/
def listing : List Message := w.rows.insertionSort Precedes

variable [DecidableEq T] (t : T)

/-- A statement: it opens a transaction if the session is in none. -/
def statement : ChatWorld T :=
  { w with
    clock := w.clock + 1
    began := Function.update w.began t (some ((w.began t).getD w.clock)) }

/-- The end of a transaction. -/
def commit : ChatWorld T :=
  { w with
    clock := w.clock + 1
    began := Function.update w.began t none }

omit [DecidableEq T] in
/-- The row that a task inserts: `created_at` is `now()`, the start of the transaction. -/
def newRow (body : Body) : Message where
  id := w.clock
  createdAt := (w.began t).getD w.clock
  body := body

/-- The insert of a row with its commit. -/
def createMessage (body : Body) (title : Option String) : ChatWorld T :=
  { w.commit t with
    conversation := w.conversation.map fun c => { c with title := title.or c.title }
    rows := w.newRow t body :: w.rows
    unanswered := Function.update w.unanswered t (owes (w.unanswered t) body) }

/-- The effect and the answer of an operation. -/
def exec (t : T) (w : ChatWorld T) : (o : ChatOp) → Option (ChatWorld T × o.Res)
  | .getConversation => some (w.statement t, w.conversation)
  | .createMessage body title => some (w.createMessage t body title, ())
  | .listMessages => some (w.statement t, w.listing)
  | .session .statement => some (w.statement t, ())
  | .session .commit => some (w.commit t, ())

/-- The end of a task's process: its transaction is rolled back. -/
def discard (t : T) (w : ChatWorld T) : ChatWorld T :=
  { w with
    began := Function.update w.began t none
    unanswered := Function.update w.unanswered t [] }

end ChatWorld

/-- The exceptions of a turn that reach its caller. -/
inductive ChatError where
  | conversationNotFound
  deriving DecidableEq, Repr

/-- A user's message, and what the model and the tools answer to it. -/
structure ChatTurn where
  userText : String
  toolsEnabled : Bool
  script : List Completion

section Turn

open Program

/-- A program of a turn. -/
abbrev ChatProgram (α : Type) : Type := Program ChatOp ChatOp.Res ChatError α

def getConversation : ChatProgram (Option Conversation) := perform ChatOp.getConversation

def createMessage (body : Body) (title : Option String) : ChatProgram Unit :=
  perform (ChatOp.createMessage body title)

def listMessages : ChatProgram (List Message) := perform ChatOp.listMessages

variable (table : CharacterTable) (quote : String → String)

/-- What `send_user_message` does for an event of the turn, and what a tool does
with the session while it is invoked. -/
def persistEvent (event : Event) : ChatProgram Unit :=
  match event with
  | .invoke _ session => Program.each (fun step => perform (ChatOp.session step)) session
  | event =>
    match eventRow event with
    | some body => createMessage body none
    | none => done ()

/-- `send_user_message`, after the existence check of its endpoint. Both checks load
the conversation into the same session, so its title is that of the first one. -/
def sendUserMessage (turn : ChatTurn) : ChatProgram Unit := do
  let some conversation ← getConversation | throw ChatError.conversationNotFound
  let some _ ← getConversation | throw ChatError.conversationNotFound
  createMessage (.user turn.userText)
    (if conversation.title.isNone then deriveTitle turn.userText else none)
  let allMessages ← listMessages
  Program.each persistEvent
    (runTurn (turnInput table quote turn.toolsEnabled turn.userText allMessages)
      (buildHistory allMessages) turn.script)

/-- Turns on one conversation, any number of them at a time. -/
def chatSystem (T : Type) [DecidableEq T] :
    System T ChatTurn (ChatWorld T) ChatOp ChatOp.Res ChatError where
  code := sendUserMessage table quote
  admits _ _ := true
  exec := ChatWorld.exec
  reset := ChatWorld.discard

end Turn

end RelyLoop.Agent
