import UsimPhonebook.Card.Channel
import UsimPhonebook.Session.Action
import UsimPhonebook.Session.Block

/-! # Desks

A desk is a block and the channel to the card, which is all that loading and editing the block
needs. The actions here are the steps that those are made of: a request to the card, a look at the
block, a change of it, an event that is counted. For each the lemma `perform_…` says what it does
to the desk.
-/

namespace UsimPhonebook

/-- A block and the channel through which it is read and written. -/
structure Desk where
  channel : Channel
  block : BlockState
  deriving DecidableEq, Repr

namespace Desk

def ask (d : Desk) (request : Request) : Except Error request.Reply × Desk :=
  ((d.channel.ask request).1, { d with channel := (d.channel.ask request).2 })

def readAll (file : FileId) : Action Desk (List Bytes) := .of (·.ask (.readAll file))

def readSubset (file : FileId) (numbers : List Nat) : Action Desk (List Bytes) :=
  .of (·.ask (.readSubset file numbers))

def write (file : FileId) (number : Nat) (record : Bytes) : Action Desk Unit :=
  .of (·.ask (.write file number record))

def sizeOf (file : FileId) : Action Desk Geometry := .of (·.ask (.size file))

def note (event : TrafficEvent) : Action Desk Unit :=
  .of fun d => (.ok (), { d with channel := d.channel.note event })

def current : Action Desk BlockState := .of fun d => (.ok d.block, d)

def change (f : BlockState → BlockState) : Action Desk Unit :=
  .of fun d => (.ok (), { d with block := f d.block })

/-- The file with a tag; it is an error if the block names none. -/
def fileOf (files : Reference.Block) (tag : FileTag) : Except Error FileId :=
  match files.file? tag with
  | some file => .ok file
  | none => .error (.missingFile files.index tag.byte)

@[simp] theorem perform_readAll (file : FileId) (d : Desk) :
    (readAll file).perform d = d.ask (.readAll file) := rfl

@[simp] theorem perform_readSubset (file : FileId) (numbers : List Nat) (d : Desk) :
    (readSubset file numbers).perform d = d.ask (.readSubset file numbers) := rfl

@[simp] theorem perform_write (file : FileId) (number : Nat) (record : Bytes) (d : Desk) :
    (write file number record).perform d = d.ask (.write file number record) := rfl

@[simp] theorem perform_sizeOf (file : FileId) (d : Desk) :
    (sizeOf file).perform d = d.ask (.size file) := rfl

@[simp] theorem perform_note (event : TrafficEvent) (d : Desk) :
    (note event).perform d = (.ok (), { d with channel := d.channel.note event }) := rfl

@[simp] theorem perform_current (d : Desk) : current.perform d = (.ok d.block, d) := rfl

@[simp] theorem perform_change (f : BlockState → BlockState) (d : Desk) :
    (change f).perform d = (.ok (), { d with block := f d.block }) := rfl

@[simp] theorem block_ask (d : Desk) (request : Request) : (d.ask request).2.block = d.block := rfl

@[simp] theorem channel_ask (d : Desk) (request : Request) :
    (d.ask request).2.channel = (d.channel.ask request).2 := rfl

end Desk

end UsimPhonebook
