/- path: JsonScada/Processor/ChangeStream
   source: src/cs_data_processor/cs_data_processor.js, resumeToken, watch, and the stream's handlers
   digest: The pair of resume tokens and what the handlers of one stream do to it. -/

import Mathlib.Data.Option.Basic
import Mathlib.Tactic.SplitIfs

set_option autoImplicit false
set_option relaxedAutoImplicit false

namespace JsonScada.Processor.ChangeStream

variable {Token : Type} [DecidableEq Token]

/-- The variables of the connection loop. Tokens are objects and compared by identity. -/
structure Connection (Token : Type) where
  clientMongo : Bool := false
  resumeToken : Option Token := none
  prevResumeToken : Option Token := none
  deriving DecidableEq

namespace Connection

/-- If resumeToken is the same, the error is taken as not recoverable. -/
def cancelToken (c : Connection Token) : Connection Token :=
  if c.resumeToken ≠ none ∧ c.resumeToken = c.prevResumeToken then
    { c with prevResumeToken := none, resumeToken := none }
  else c

/-- The body that the handlers of 'error' and 'close' share. -/
def release (c : Connection Token) : Connection Token :=
  let c := c.cancelToken
  { c with prevResumeToken := c.resumeToken, clientMongo := false }

def onError (c : Connection Token) : Connection Token := c.release

def onClose (c : Connection Token) : Connection Token := c.release

def onEnd (c : Connection Token) : Connection Token := { c with clientMongo := false }

def onChange (token : Token) (c : Connection Token) : Connection Token :=
  { c with resumeToken := some token }

/-- The loop connects when there is no client, and watches from the token. -/
def connect (c : Connection Token) : Option (Connection Token × Option Token) :=
  if c.clientMongo then none else some ({ c with clientMongo := true }, c.resumeToken)

/-- After either handler the two tokens are the same. -/
theorem release_same (c : Connection Token) :
    c.release.prevResumeToken = c.release.resumeToken := rfl

/-- A token stored that is the previous one is dropped. -/
theorem release_of_same {c : Connection Token} (h : c.resumeToken = c.prevResumeToken) :
    c.release.resumeToken = none := by
  rw [release, cancelToken]
  split_ifs with hcancel
  · rfl
  · exact not_not.mp fun hstored => hcancel ⟨hstored, h⟩

/-- Any other token is kept. -/
theorem release_of_ne {c : Connection Token} (h : c.resumeToken ≠ c.prevResumeToken) :
    c.release.resumeToken = c.resumeToken := by
  have hkeep : ¬ (c.resumeToken ≠ none ∧ c.resumeToken = c.prevResumeToken) := fun hc => h hc.2
  rw [release, cancelToken, if_neg hkeep]

/-- Both handlers run for one failure: no token is left. -/
theorem close_of_error (c : Connection Token) : c.onError.onClose.resumeToken = none :=
  release_of_same (release_same c).symm

end Connection

end JsonScada.Processor.ChangeStream
