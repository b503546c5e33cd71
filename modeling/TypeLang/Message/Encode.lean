import TypeLang.Message.Length
import TypeLang.Message.Measure
import TypeLang.Message.Progress
import TypeLang.Wire.Emission

/-!
Objects written from their values. The length is found first, so that the bytes are put down in one
buffer of just that length. A value may be supplied as bytes that are already what it would be
written as; they are measured, and have to be all of one object or vector.
-/

set_option autoImplicit false
set_option relaxedAutoImplicit false

namespace TypeLang

open Wire

namespace Message

/-- Where a value is put down: the schema, the guards taken, and the size of the buffer. -/
structure Target where
  schema : Schema
  held : Nat
  limit : Nat

/-- Puts down bytes that are measured as a value of some kind. -/
def emitRaw (t : Target) (field : String) (kind : Kind) (offset : Nat) (raw : ByteArray) :
    Emission :=
  .ofMetered (t.schema.measureKind t.held raw kind 0) fun size =>
    match checkExact raw.size size field with
    | .error fault => .refuse fault
    | .ok () => .piece t.limit offset raw

/-- Puts down a value that holds no other values. -/
def emitPlain (t : Target) (field : String) (kind : Kind) (offset : Nat) (v : Value) :
    Emission :=
  let mismatch : Emission := .refuse (.wrongType field kind v)
  let word {n : Nat} (x : Vector UInt8 n) : Emission := .piece t.limit offset (encodeWord x)
  match kind with
  | .mask =>
    match v.toMask? with
    | some bits => .piece t.limit offset (encodeUInt32 bits)
    | none => mismatch
  | .int =>
    match v with
    | .int x => .piece t.limit offset (encodeInt32 x)
    | _ => mismatch
  | .long =>
    match v.toLong? with
    | some x => .piece t.limit offset (encodeInt64 x)
    | none => mismatch
  | .double =>
    match v with
    | .double x => .piece t.limit offset (encodeDouble x)
    | _ => mismatch
  | .int128 =>
    match v with
    | .int128 x => word x
    | .bytes raw => if raw.size = 16 then .piece t.limit offset raw else mismatch
    | _ => mismatch
  | .int256 =>
    match v with
    | .int256 x => word x
    | .bytes raw => if raw.size = 32 then .piece t.limit offset raw else mismatch
    | _ => mismatch
  | .bool =>
    match v with
    | .bool b => .piece t.limit offset (encodeBool b)
    | _ => mismatch
  | .presence =>
    match v with
    | .bool _ => .empty
    | _ => mismatch
  | .bytes | .string =>
    match v with
    | .bytes data => .byteString t.limit offset data
    | _ => mismatch
  | .vector .. | .object .. | .generic _ | .anyObject =>
    match v with
    | .bytes raw => emitRaw t field kind offset raw
    | _ => mismatch

/-- Puts down the zero of a kind, for a field that is omitted. -/
def emitZero (t : Target) (field : String) (kind : Kind) (offset : Nat) : Emission :=
  match kind with
  | .vector boxed _ => .vectorHeader t.limit offset boxed 0
  | .object .. | .generic _ | .anyObject => .refuse (.missingValue field)
  | kind => emitPlain t field kind offset kind.zero

/-- Puts down one field behind those put down already. -/
def emitField (c : Combinator) (offset index : Nat) (v : Value)
    (emit : Nat → Emission) (state : Progress × Emission) : Progress × Emission :=
  match state.1.accept c index v with
  | .error e => (state.1, state.2.andThen fun _ => .fail e)
  | .ok (_, progress) => (progress, state.2.andThen fun n => emit (offset + n))

/-- Puts down the fields that are there, from the one of a given number on, and checks at the end
that none is missing. -/
def emitFields (t : Target) (c : Combinator) (masks : Masks) (entries : Entries)
    (entry : Field → Nat → Emission) (offset : Nat) :
    Nat → List Field → Progress × Emission → Emission
  | _, [], (progress, done) =>
    match progress.finish c with
    | .ok () => done
    | .error e => done.andThen fun _ => .fail e
  | index, f :: rest, (progress, done) =>
    if done.fault?.isSome then done
    else
      match f.slot with
      | some slot =>
        emitFields t c masks entries entry offset (index + 1) rest
          (emitField c offset index (.mask (masks slot))
            (fun at_ => emitPlain t f.name f.kind at_ (.mask (masks slot))) (progress, done))
      | none =>
        match masks.skips f with
        | .error e => done.andThen fun _ => .fail e
        | .ok true =>
          emitFields t c masks entries entry offset (index + 1) rest (progress, done)
        | .ok false =>
          match entries.find? f.name, f.kind.zeroLength? with
          | none, none => done.andThen fun _ => .refuse (.missingValue f.name)
          | value?, _ =>
            emitFields t c masks entries entry offset (index + 1) rest
              (emitField c offset index (value?.getD f.kind.zero) (entry f)
                (progress, done))

/-- Puts down the tag of an object, if it has one there. -/
def emitTag (t : Target) (object : Located) (offset : Nat) : Emission :=
  match object.combinator.tag with
  | some tag => if object.header = 0 then .empty else .piece t.limit offset (encodeUInt32 tag)
  | none => .empty

/-- Puts down an object, given what its supplied fields put down. -/
def emitInstance (t : Target) (located : Except Error Located) (entries : Entries)
    (entry : Field → Nat → Emission) (offset : Nat) : Emission :=
  match located with
  | .error e => .fail e
  | .ok object =>
    match resolveMasks object.combinator.fields entries with
    | .error e => .fail e
    | .ok masks =>
      let start := emitTag t object offset
      emitFields t object.combinator masks entries entry offset 0 object.combinator.fields
        (.start, start)

/-- The combinator of an object that is written for a type, which it has to belong to. -/
def locateMemberWritten (s : Schema) (typeName name : String) (bare : Bool) :
    Except Error Located :=
  match s.locateWritten name bare with
  | .error e => .error e
  | .ok object =>
    let fits :=
      if bare then (s.bareTarget? typeName).any (·.name == object.combinator.name)
      else object.combinator.constructs typeName
    if fits then .ok object else .error (.invalidState (.notAConstructor name typeName))

mutual

/-- Puts down a value of some kind. -/
def emitValue (t : Target) (field : String) (kind : Kind) (offset : Nat) : Value → Emission
  | .vector items =>
    match kind with
    | .vector boxed element =>
      if UInt32.size ≤ items.length then .refuse (.tooManyItems field)
      else
        emitItems t field element offset
          (.vectorHeader t.limit offset boxed items.length) items
    | _ => emitPlain t field kind offset (.vector items)
  | .object ⟨name, tag, entries⟩ =>
    match kind with
    | .object typeName bare =>
      emitInstance t
        (locateMemberWritten t.schema typeName name (t.schema.writesBare typeName bare))
        entries (fun f at_ => emitEntry t f.name f.kind at_ entries) offset
    | .generic _ | .anyObject =>
      emitInstance t (t.schema.locateWritten name false) entries
        (fun f at_ => emitEntry t f.name f.kind at_ entries) offset
    | _ => emitPlain t field kind offset (.object ⟨name, tag, entries⟩)
  | v => emitPlain t field kind offset v

/-- Puts down items behind those put down already. -/
def emitItems (t : Target) (field : String) (element : Kind) (offset : Nat)
    (done : Emission) : List Value → Emission
  | [] => done
  | v :: rest =>
    if done.fault?.isSome then done
    else
      emitItems t field element offset
        (done.andThen fun n => emitValue t field element (offset + n) v) rest

/-- Puts down the first value under a name, or the zero where there is none. -/
def emitEntry (t : Target) (name : String) (kind : Kind) (offset : Nat) :
    List (String × Value) → Emission
  | [] => emitZero t name kind offset
  | (other, v) :: rest =>
    if other = name then emitValue t name kind offset v
    else emitEntry t name kind offset rest

end

end Message

namespace Schema

open Message

/-- The bytes of the combinator of a name with the given entries, with `held` guards taken. -/
def build (s : Schema) (held : Nat) (name : String) (entries : Entries) : Metered ByteArray :=
  let located := s.locateNamed name
  match instanceLength located entries (fun f => entryLength s f.name f.kind entries) with
  | .error e => .fail e
  | .ok size =>
    let t : Target := ⟨s, held, size⟩
    let e := emitInstance t located entries
      (fun f at_ => emitEntry t f.name f.kind at_ entries) 0
    ⟨e.outcome.map fun _ => e.bytes, e.log⟩

end Schema

end TypeLang
