import TypeLang.Declaration.Printer
import TypeLang.Generate.Code
import TypeLang.Generate.Plan
import TypeLang.Text.Hex

/-!
The code of a generated item: a struct over borrowed bytes, with an accessor for every field, the
walk that finds a field, and the functions that give the size of an instance and build one.
-/

set_option autoImplicit false
set_option relaxedAutoImplicit false

namespace TypeLang.Generate

open Code (line block blank)

/-- The traits that items derive. -/
def derived : Code := line "#[derive(Debug, Clone, Copy, PartialEq, Eq)]"

/-- Lines of documentation, where documentation is wanted. -/
def docs (wanted : Bool) (texts : List String) : List Code :=
  if wanted then texts.map fun text => line ("/// " ++ text) else []

/-- A tag as a literal. -/
def tagLiteral (tag : UInt32) : String := "0x" ++ Text.Hex.word tag

/-- The parameters of a function. -/
def parameterList (parameters : List (String × String)) : String :=
  ", ".intercalate (parameters.map fun (name, type) => s!"{name}: {type}")

namespace FieldPlan

/-- The steps of the walk that pass over a field, with its number. -/
def walkArm (index : Nat) (f : FieldPlan) : List Code :=
  match f.field.slot with
  | some _ =>
    [block s!"{index} =>" [line s!"flags_{index} = layout::read_u32(buf, pos)?;",
      line "pos += 4;"]]
  | none =>
    if f.field.isPresence then []
    else
      let size := f.type.sizeExpr "buf" "pos"
      match f.gate with
      | some (mask, gate) =>
        [block s!"{index} =>" [block s!"if flags_{mask} & (1u32 << {gate.bit.toNat}) != 0"
          [line s!"pos += {size}?;"]]]
      | none => [line s!"{index} => pos += {size}?,"]

/-- The declaration of a field, as its accessor shows it. -/
def declared (f : FieldPlan) : String :=
  let condition := (f.argument.condition.map Condition.text).getD ""
  s!"`{f.argument.name}:{condition}{f.argument.type.text}`"

/-- The accessor of a field, with its number. -/
def accessorCode (wanted : Bool) (plan : ItemPlan) (index : Nat) (f : FieldPlan) : List Code :=
  let gate := f.gate.map fun (mask, gate) =>
    s!"self.{plan.accessorAt mask}()? & (1u32 << {gate.bit.toNat}) != 0"
  let head (type : String) : String := s!"pub fn {f.accessor}(&self) -> rt::Result<{type}>"
  let type := f.type.readType
  let read := f.type.readExpr "self.buf" "pos"
  let start := line s!"let pos = self.field_offset({index})?;"
  docs wanted [f.declared] ++
    [if f.field.isPresence then
      match gate with
      | some condition => block (head "bool") [line s!"Ok({condition})"]
      | none => block (head "bool") [line "Ok(true)"]
    else
      match gate with
      | some condition =>
        block (head s!"Option<{type}>")
          [block s!"if !({condition})" [line "return Ok(None);"], start,
            line s!"{read}.map(|(v, _)| Some(v))"]
      | none => block (head type) [start, line s!"{read}.map(|(v, _)| v)"]]

/-- What a field adds to the size of an instance. -/
def sizeTerm? (f : FieldPlan) : Option String :=
  if f.field.isPresence then none
  else
    match f.type.width?, f.isConditional, f.type with
    | some width, true, _ => some s!"(if has_{f.base} \x7b {width} \x7d else \x7b 0 \x7d)"
    | some width, false, _ => some s!"{width}"
    | none, true, .bytes => some s!"{f.base}_len.map_or(0, layout::encoded_bytes_len)"
    | none, false, .bytes => some s!"layout::encoded_bytes_len({f.base}_len)"
    | none, true, _ => some s!"{f.base}_len.unwrap_or(0)"
    | none, false, _ => some s!"{f.base}_len"

/-- The checks of an argument of `build`: that it agrees with its bit, and that bytes of its own are
a whole value. -/
def checks (plan : ItemPlan) (f : FieldPlan) : List String :=
  if f.field.isPresence then []
  else
    let p := f.parameter
    let gate := f.gate.toList.map fun (mask, gate) =>
      s!"layout::check_gate({buildParameter (plan.accessorAt mask)}, {gate.bit.toNat}, " ++
        s!"{p}.is_some(), \"{f.argument.name}\")?;"
    let size := f.type.sizeExpr "v" "0"
    let exact := s!"layout::check_exact(v, {size}?, \"{f.argument.name}\")?;"
    let serialized :=
      if !f.type.isSerialized then []
      else if f.isConditional then [s!"if let Some(v) = {p} \x7b {exact} \x7d"]
      else [s!"\x7b let v = {p}; {exact} \x7d"]
    gate ++ serialized

/-- The argument of `required_size` in `build`. -/
def sizeArgument? (f : FieldPlan) : Option String :=
  if f.field.isPresence then none
  else
    match f.type.width?, f.isConditional with
    | some _, false => none
    | some _, true => some s!"{f.parameter}.is_some()"
    | none, false => some (f.type.lengthExpr f.parameter)
    | none, true => some (s!"{f.parameter}.map(|v| " ++ f.type.lengthExpr "v" ++ ")")

/-- The step of `build` that writes an argument. -/
def writeStep? (f : FieldPlan) : Option String :=
  if f.field.isPresence then none
  else if f.isConditional then
    some (s!"if let Some(v) = {f.parameter} \x7b pos += " ++ f.type.writeExpr "v" ++ "?; \x7d")
  else some ("pos += " ++ f.type.writeExpr f.parameter ++ "?;")

end FieldPlan

namespace ItemPlan

/-- The walk over the first fields of an instance. -/
def walkCode (plan : ItemPlan) : Code :=
  block "fn offset_of(buf: &[u8], start: usize, stop: usize) -> rt::Result<usize>" <|
    if plan.fields.isEmpty then [line "let _ = (buf, stop);", line "Ok(start)"]
    else
      let numbered := plan.fields.zipIdx
      let masks := numbered.filterMap fun (f, index) =>
        f.field.slot.map fun _ => line s!"let mut flags_{index} = 0u32;"
      let arms := numbered.flatMap fun (f, index) => f.walkArm index
      let name := plan.combinator.name
      [line "let mut pos = start;"] ++ masks ++
        [block "for index in 0..stop.min(Self::FIELD_COUNT)"
          [block "match index" (arms ++ [line "_ => \x7b\x7d"])],
          line s!"layout::record_walk(\"{name}\", stop.min(Self::FIELD_COUNT));",
          line "Ok(pos)"]

/-- The function for the offset of a field. -/
def offsetCode (wanted : Bool) (plan : ItemPlan) : List Code :=
  let fault := "return Err(rt::TlError::InvalidFieldState(format!(\"`" ++ plan.combinator.name ++
    "` has no field #\x7b\x7d\", index)));"
  docs wanted [
    "Offset of field `index` within [`Self::as_bytes`]. Walks every",
    "earlier field on each call, so the cost grows with `index`;",
    "offsets are not cached."] ++
  [block "pub fn field_offset(&self, index: usize) -> rt::Result<usize>"
    [block "if index >= Self::FIELD_COUNT" [line fault],
      line "Self::offset_of(self.buf, self.header, index)"]]

/-- The terms of a sum, one to a line. -/
def sumLines : List String → List Code
  | [] => [line "0"]
  | first :: rest => line first :: rest.map fun term => line ("    + " ++ term)

/-- The function for the size of an instance. -/
def sizeCode (wanted : Bool) (plan : ItemPlan) : List Code :=
  let tag := if plan.combinator.tag.isSome then ["4"] else []
  docs wanted [
    "Exact encoded size. `*_len` arguments are data lengths for byte",
    "strings and full encoded lengths for vectors and objects."] ++
  [block s!"pub fn required_size({parameterList plan.sizeParameters}) -> usize"
    (sumLines (tag ++ plan.fields.filterMap FieldPlan.sizeTerm?))]

/-- The function that builds an instance. -/
def buildCode (wanted : Bool) (plan : ItemPlan) : List Code :=
  let size := ", ".intercalate (plan.fields.filterMap FieldPlan.sizeArgument?)
  let tag :=
    if plan.combinator.tag.isSome then
      [line "pos += layout::write_u32(&mut buf, pos, Self::TAG)?;"]
    else []
  docs wanted [
    "Serialize into one exactly-sized buffer. Every conditional argument",
    "must agree with its flag bit."] ++
  [block s!"pub fn build({parameterList plan.buildParameters}) -> rt::Result<Vec<u8>>"
    ((plan.fields.flatMap (FieldPlan.checks plan)).map line ++
      [line s!"let size = Self::required_size({size});", line "let mut buf = vec![0u8; size];",
        line "let mut pos = 0usize;"] ++ tag ++
      (plan.fields.filterMap FieldPlan.writeStep?).map line ++
      [line "debug_assert_eq!(pos, size);", line "Ok(buf)"])]

/-- The functions that measure and read an instance, with its tag or without. -/
def readCode (plan : ItemPlan) (trait sizeName readName : String) (header : Nat) : Code :=
  let name := plan.item
  let start := if header = 0 then "offset" else s!"offset + {header}"
  block s!"impl<'a> layout::{trait}<'a> for {name}<'a>"
    [block s!"fn {sizeName}(buf: &[u8], offset: usize) -> rt::Result<usize>"
      [line "let _depth = layout::DepthGuard::enter(offset)?;",
        line s!"layout::ensure(buf, offset, {header})?;",
        line s!"Ok(Self::offset_of(buf, {start}, Self::FIELD_COUNT)? - offset)"],
      blank,
      block s!"fn {readName}(buf: &'a [u8], offset: usize) -> rt::Result<(Self, usize)>"
        [line s!"let size = <Self as layout::{trait}<'a>>::{sizeName}(buf, offset)?;",
          line (s!"Ok(({name} \x7b buf: &buf[offset..offset + size], " ++
            s!"header: {header} \x7d, size))")]]

/-- The method for the tag in the bytes of an instance. -/
def tagCode (wanted : Bool) (plan : ItemPlan) : List Code :=
  if plan.combinator.tag.isNone then []
  else
    [blank] ++ docs wanted ["Leading tag, not validated; `None` when read bare."] ++
      [block "pub fn constructor_tag(&self) -> Option<u32>"
        [block "if self.header == 0" [line "return None;"],
          line "layout::read_u32(self.buf, 0).ok()"]]

/-- The code of an item. -/
def code (wanted : Bool) (plan : ItemPlan) : List Code :=
  let c := plan.combinator
  let tag := c.tag.toList.map fun tag => line s!"pub const TAG: u32 = {tagLiteral tag};"
  let accessors := plan.fields.zipIdx.flatMap fun (f, index) =>
    blank :: f.accessorCode wanted plan index
  let boxed :=
    if c.tag.isSome then [blank, plan.readCode "TlRead" "size_of" "read" 4] else []
  docs wanted [s!"`{c.declaration.text}`"] ++
  [derived,
    block s!"pub struct {plan.item}<'a>" [line "buf: &'a [u8],", line "header: usize,"],
    blank,
    block s!"impl<'a> {plan.item}<'a>"
      (tag ++
        [line s!"pub const FIELD_COUNT: usize = {c.fields.length};", blank,
          block "pub fn as_bytes(&self) -> &'a [u8]" [line "self.buf"]] ++
        plan.tagCode wanted ++ [blank, plan.walkCode, blank] ++ plan.offsetCode wanted ++
        accessors ++ [blank] ++ plan.sizeCode wanted ++ [blank] ++ plan.buildCode wanted)] ++
  boxed ++ [blank, plan.readCode "TlBareRead" "bare_size_of" "read_bare" 0]

end ItemPlan

end TypeLang.Generate
