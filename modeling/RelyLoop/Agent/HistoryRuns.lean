import RelyLoop.Agent.HistorySafety

/-!
# Histories over whole runs

Any number of turns on one conversation, interleaved and cut off anywhere. While the
rows of a tool-call group stay together, every history is well formed. The code does
nothing to keep them together: a turn that is cut off after its tool-call row leaves
every later history malformed, and so does a turn beside another one.
-/

namespace RelyLoop.Agent

open Concurrency Python

section Runs

variable (T : Type) [DecidableEq T] (table : CharacterTable) (quote : String → String)

/-- A conversation without messages. -/
def newConversation (clock : ℕ) (conversation : Option Conversation) : ChatWorld T where
  clock := clock
  conversation := conversation
  rows := []
  began _ := none
  unanswered _ := []

/-- In every run whose operations meet `cond`, the history that a turn is about to
build is well formed, if reading it meets the condition too. -/
def HistoriesWellFormed (cond : T → ChatWorld T → ChatOp → Prop) (w : ChatWorld T) : Prop :=
  ∀ c, (chatSystem table quote T).Run cond (System.idle w) c → ∀ t turn next,
    c.task t = some (turn, .call .listMessages next) → cond t c.world .listMessages →
    WellFormed (buildHistory c.world.listing)

end Runs

/-- A call of `get_study`. -/
def getStudy : AnsweredCall where
  call := ⟨"a", "get_study", "7"⟩
  validationError := none
  session := [.statement]
  outcome := .ok "running"

/-- A turn that looks a study up and reports it. -/
def statusTurn : ChatTurn where
  userText := "How is study 7?"
  toolsEnabled := true
  script := [.answer [] [getStudy], .answer ["It is running."] []]

/-- The history that a task is about to build. -/
def nextHistory (c : Config ℕ ChatTurn (ChatWorld ℕ) ChatOp ChatOp.Res ChatError) (t : ℕ) :
    Option (List HistoryMessage) :=
  match c.task t with
  | some (_, .call .listMessages _) => some (buildHistory c.world.listing)
  | _ => none

theorem task_of_nextHistory {c : Config ℕ ChatTurn (ChatWorld ℕ) ChatOp ChatOp.Res ChatError}
    {t : ℕ} {history : List HistoryMessage} (h : nextHistory c t = some history) :
    (∃ turn next, c.task t = some (turn, .call .listMessages next)) ∧
      buildHistory c.world.listing = history := by
  unfold nextHistory at h
  split at h
  · rename_i turn next htask
    exact ⟨⟨turn, next, htask⟩, Option.some.inj h⟩
  · cases h

/-- The system of turns on ASCII texts. -/
abbrev asciiChat : System ℕ ChatTurn (ChatWorld ℕ) ChatOp ChatOp.Res ChatError :=
  chatSystem asciiTable id ℕ

end RelyLoop.Agent
