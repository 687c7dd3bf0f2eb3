import Emend.Act

/-!
# Stores

A store holds the texts of files by path. It fetches, writes and deletes them in a state of type `σ`.
Each text comes with a token; a write or delete that carries a token is meant for the text that the
token was given for, and a store refuses it when it can tell that the text has changed since.
-/

namespace Emend

/-- What identifies the state of a file at a time. -/
abbrev Token := Text

/-- The text of a file and its token. -/
structure Fetched where
  text : Text
  token : Token
  deriving DecidableEq, Repr

/-- A place where files are kept, in a state of type `σ`. -/
structure Store (σ : Type) where
  /-- The store's name in reports. -/
  describe : Text
  /-- The text of the file at a path, `none` if there is no such file. -/
  fetch (path : Text) (ref : Option Text) : Act σ (Option Fetched)
  /-- Makes the text that of the file at a path, and answers its token. -/
  write (path text : Text) (token ref message : Option Text) : Act σ Token
  /-- Deletes the file at a path. -/
  delete (path : Text) (token ref message : Option Text) : Act σ Unit

/-- The store in a part of a larger state. -/
def Store.focus {σ τ : Type} (get : τ → σ) (set : σ → τ → τ) (s : Store σ) : Store τ where
  describe := s.describe
  fetch path ref := (s.fetch path ref).focus get set
  write path text token ref message := (s.write path text token ref message).focus get set
  delete path token ref message := (s.delete path token ref message).focus get set

/-- The store whose notes are recorded in the state as soon as an operation is over. -/
def Store.recording {σ : Type} (record : Note → σ → σ) (s : Store σ) : Store σ where
  describe := s.describe
  fetch path ref := (s.fetch path ref).recording record
  write path text token ref message := (s.write path text token ref message).recording record
  delete path token ref message := (s.delete path token ref message).recording record

/-- A note of a store. -/
def storeNote (t : Text) : Note := { channel := .store, text := t }

end Emend
