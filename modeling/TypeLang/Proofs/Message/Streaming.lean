import Mathlib.Algebra.GroupWithZero.Nat
import Mathlib.Data.List.Forall2
import TypeLang.Proofs.Message.RoundTrip

/-!
Objects that stand one behind the other. `Schema.Streams` says, without a measure that falls, how
the loop runs that takes the next object until the buffer is used up. From every place there is a
run (`Schema.exists_streams`), and it is what the loop finds (`Schema.Streams.stream_eq`). Every
object takes whole words of the buffer (`Schema.WireForm.four_dvd_size`), so that a run covers the
bytes up to where it stops (`Schema.Streams.covers`), and messages that were built and put together
are found again, each at its place (`Schema.stream_recovers_concat`).
-/

set_option autoImplicit false
set_option relaxedAutoImplicit false

namespace TypeLang

open Wire Message

/-! ### Whole words -/

theorem Wire.ByteString.Form.four_dvd_size (form : ByteString.Form) : 4 ∣ form.bytes.size := by
  rw [form.size_bytes]
  exact Nat.dvd_mul_left 4 _

theorem Wire.Vectors.four_dvd_headerLength (boxed : Bool) : 4 ∣ Vectors.headerLength boxed := by
  cases boxed <;> decide

theorem Kind.PlainForm.four_dvd_size {kind : Kind} {v : Value} {bytes : ByteArray}
    (h : kind.PlainForm v bytes) : 4 ∣ bytes.size := by
  cases h <;> simp

theorem Located.four_dvd_header {object : Located}
    (h : object.header = 0 ∨ object.header = tagLength) : 4 ∣ object.header := by
  rcases h with h | h <;> rw [h] <;> decide

namespace Schema

variable {s : Schema} {held : Nat} {r : Reference} {buffer : ByteArray}

/-- Whatever is written takes whole words of four bytes. -/
theorem WireForm.four_dvd_size {part : Part} {bytes : ByteArray} {sites : List Site}
    (h : s.WireForm part bytes sites) : 4 ∣ bytes.size := by
  induction h with
  | plain h => exact h.four_dvd_size
  | byteString _ form => exact form.four_dvd_size
  | @vector boxed element count items bytes sites _ _ ih =>
    rw [ByteArray.size_append, Vectors.size_header]
    exact Nat.dvd_add (Vectors.four_dvd_headerLength boxed) ih
  | object _ hleads _ ih =>
    have htag := hleads.tag_of_header
    rw [ByteArray.size_append, Located.size_tagBytes htag]
    exact Nat.dvd_add (Located.four_dvd_header (htag.imp_right And.left)) ih
  | noItems _ => exact Nat.dvd_zero 4
  | lastItem _ _ ih => exact ih
  | item _ _ _ ihItem ihRest =>
    rw [ByteArray.size_append]
    exact Nat.dvd_add ihItem ihRest
  | noFields _ => exact Nat.dvd_zero 4
  | mask _ _ ih =>
    rw [ByteArray.size_append, size_encodeUInt32]
    exact Nat.dvd_add (Nat.dvd_refl 4) ih
  | presence _ _ _ _ ih => exact ih
  | absent _ _ _ _ ih => exact ih
  | present _ _ _ _ _ ihValue ihRest =>
    rw [ByteArray.size_append]
    exact Nat.dvd_add ihValue ihRest

/-- An object that a reference finds has no tag or one of a word. -/
theorem header_of_locate {pos : Nat} {object : Located} (hpos : pos ≤ buffer.size)
    (h : s.locate buffer pos r = .ok object) : object.header = 0 ∨ object.header = tagLength := by
  cases r with
  | named name =>
    rw [(header_of_locate_named hpos h).2]
    by_cases hheader : object.combinator.header = 0
    · exact .inl hheader
    · exact .inr (Combinator.tag_of_header hheader).1
  | typed typeName bare =>
    exact ((locateTyped_eq_ok_iff hpos).mp h).1.tag_of_header.imp_right And.left
  | any => exact (locateAny_eq_ok_iff.mp h).1.tag_of_header.imp_right And.left

/-- An object that is read takes whole words inside the buffer. -/
theorem read_fits {pos used : Nat} {o : Object} (hpos : pos ≤ buffer.size)
    (h : s.read held r buffer pos = .ok (o, used)) : 4 ∣ used ∧ pos + used ≤ buffer.size := by
  unfold read at h
  cases hlocate : s.locate buffer pos r with
  | error e => rw [hlocate] at h; cases h
  | ok object =>
    rw [hlocate] at h
    obtain ⟨header, body, sites, entries, -, hheader, hform, hstands, rfl, -⟩ :=
      s.found_of_decodeAt _ object pos o used hpos h
    refine ⟨?_, hstands.le_size⟩
    rw [ByteArray.size_append, hheader]
    exact Nat.dvd_add (Located.four_dvd_header (header_of_locate hpos hlocate)) hform.four_dvd_size

/-! ### The loop over a buffer -/

theorem readNext_eq_ok_iff {pos used : Nat} {o : Object} :
    s.readNext held r buffer pos = .ok (o, used) ↔
      s.read held r buffer pos = .ok (o, used) ∧ 0 < used := by
  constructor
  · intro h
    refine ⟨?_, readNext_pos h⟩
    unfold readNext at h
    split at h
    · cases h
    · cases h
    · rename_i found _ hread
      rw [hread, h]
  · rintro ⟨hread, hused⟩
    obtain ⟨before, rfl⟩ := Nat.exists_eq_succ_of_ne_zero (Nat.ne_of_gt hused)
    unfold readNext
    rw [hread]
    rfl

/-- A run of the loop from a place: the objects it takes, each with its place and length, and the
place and error at which it stops early. -/
inductive Streams (s : Schema) (held : Nat) (r : Reference) (buffer : ByteArray) :
    Nat → List (Object × Nat × Nat) → Option (Nat × Error) → Prop
  | finished {pos : Nat} (h : buffer.size ≤ pos) : Streams s held r buffer pos [] none
  | failed {pos : Nat} {e : Error} (hpos : pos < buffer.size)
      (h : s.readNext held r buffer pos = .error e) :
      Streams s held r buffer pos [] (some (pos, e))
  | next {pos used : Nat} {o : Object} {found : List (Object × Nat × Nat)}
      {stop : Option (Nat × Error)} (hpos : pos < buffer.size)
      (h : s.readNext held r buffer pos = .ok (o, used))
      (hrest : Streams s held r buffer (pos + used) found stop) :
      Streams s held r buffer pos ((o, pos, used) :: found) stop

/-- The number of bytes that found objects take. -/
def taken (found : List (Object × Nat × Nat)) : Nat := (found.map fun (_, _, used) ↦ used).sum

/-- Found objects stand one behind the other from a place on, each where the loop finds it and in
whole words inside the buffer. Behind the last one the buffer ends, or there is an error. -/
structure Covers (s : Schema) (held : Nat) (r : Reference) (buffer : ByteArray) (start : Nat)
    (found : List (Object × Nat × Nat)) (stop : Option (Nat × Error)) : Prop where
  place_eq : ∀ i (hi : i < found.length), found[i].2.1 = start + taken (found.take i)
  readNext_eq : ∀ entry ∈ found,
    s.readNext held r buffer entry.2.1 = .ok (entry.1, entry.2.2)
  used_pos : ∀ entry ∈ found, 0 < entry.2.2
  four_dvd_used : ∀ entry ∈ found, 4 ∣ entry.2.2
  le_size : start + taken found ≤ buffer.size
  stop_eq : match stop with
    | none => start + taken found = buffer.size
    | some (pos, e) => pos = start + taken found ∧ pos < buffer.size ∧
      s.readNext held r buffer pos = .error e

theorem taken_cons (o : Object) (pos used : Nat) (found : List (Object × Nat × Nat)) :
    taken ((o, pos, used) :: found) = used + taken found :=
  List.sum_cons

/-- From every place the loop comes to an end. -/
theorem exists_streams (s : Schema) (held : Nat) (r : Reference) (buffer : ByteArray)
    (pos : Nat) : ∃ found stop, s.Streams held r buffer pos found stop := by
  by_cases hpos : pos < buffer.size
  · cases hnext : s.readNext held r buffer pos with
    | error e => exact ⟨[], some (pos, e), .failed hpos hnext⟩
    | ok pair =>
      obtain ⟨o, used⟩ := pair
      have hused := readNext_pos hnext
      obtain ⟨found, stop, hrest⟩ := s.exists_streams held r buffer (pos + used)
      exact ⟨(o, pos, used) :: found, stop, .next hpos hnext hrest⟩
  · exact ⟨[], none, .finished (Nat.le_of_not_lt hpos)⟩
termination_by buffer.size - pos

namespace Streams

variable {pos : Nat} {found : List (Object × Nat × Nat)} {stop : Option (Nat × Error)}

/-- What a run takes is added to what was found before. -/
theorem stream_eq (h : s.Streams held r buffer pos found stop) :
    ∀ done, s.stream held r buffer done pos = (done ++ found.toArray, stop) := by
  induction h with
  | finished h =>
    intro done
    rw [stream, if_neg (Nat.not_lt_of_le h)]
    simp
  | failed hpos h =>
    intro done
    rw [stream, if_pos hpos]
    split
    · rename_i hnext
      cases h.symm.trans hnext
      simp
    · rename_i hnext
      cases h.symm.trans hnext
  | next hpos h _ ih =>
    intro done
    rw [stream, if_pos hpos]
    split
    · rename_i hnext
      cases h.symm.trans hnext
    · rename_i hnext
      cases h.symm.trans hnext
      rw [ih]
      simp

/-- A run covers the bytes from where it starts to where it stops. -/
theorem covers (h : s.Streams held r buffer pos found stop) (hstart : pos ≤ buffer.size) :
    s.Covers held r buffer pos found stop := by
  induction h with
  | finished h =>
    exact ⟨nofun, nofun, nofun, nofun, hstart, Nat.le_antisymm hstart h⟩
  | failed hpos h =>
    exact ⟨nofun, nofun, nofun, nofun, hstart, rfl, hpos, h⟩
  | @next pos used o found stop hpos h _ ih =>
    obtain ⟨hread, hused⟩ := readNext_eq_ok_iff.mp h
    obtain ⟨hwords, hfits⟩ := read_fits hstart hread
    have hrest := ih hfits
    have htaken : pos + taken ((o, pos, used) :: found) = pos + used + taken found := by
      rw [taken_cons, Nat.add_assoc]
    refine ⟨?_, ?_, ?_, ?_, ?_, ?_⟩
    · intro i hi
      cases i with
      | zero => rfl
      | succ i =>
        rw [List.getElem_cons_succ, List.take_succ_cons, taken_cons, ← Nat.add_assoc]
        exact hrest.place_eq i (Nat.lt_of_succ_lt_succ hi)
    · exact List.forall_mem_cons.mpr ⟨h, hrest.readNext_eq⟩
    · exact List.forall_mem_cons.mpr ⟨hused, hrest.used_pos⟩
    · exact List.forall_mem_cons.mpr ⟨hwords, hrest.four_dvd_used⟩
    · rw [htaken]
      exact hrest.le_size
    · rw [htaken]
      exact hrest.stop_eq

end Streams

/-- A run takes no more objects than there are words. -/
theorem Covers.four_mul_length_le {start : Nat} {found : List (Object × Nat × Nat)}
    {stop : Option (Nat × Error)} (h : s.Covers held r buffer start found stop) :
    4 * found.length ≤ taken found := by
  have hwords : ∀ entry ∈ found, 4 ≤ entry.2.2 := fun entry hentry ↦
    Nat.le_of_dvd (h.used_pos entry hentry) (h.four_dvd_used entry hentry)
  clear h
  induction found with
  | nil => exact Nat.le_refl 0
  | cons entry rest ih =>
    obtain ⟨o, pos, used⟩ := entry
    obtain ⟨hfirst, hrest⟩ := List.forall_mem_cons.mp hwords
    rw [taken_cons, List.length_cons, Nat.mul_succ, Nat.add_comm]
    exact Nat.add_le_add hfirst (ih hrest)

/-! ### Messages put together -/

/-- A message that was built for a combinator with a tag, of objects that are nested no deeper than
there are guards. -/
structure BuiltMessage (s : Schema) where
  name : String
  combinator : Combinator
  entries : Entries
  bytes : ByteArray
  combinator?_eq : s.combinator? name = some combinator
  tagged : combinator.tag.isSome = true
  build_eq : (s.build 0 name entries).outcome = .ok bytes
  height_le : (s.normalObject combinator entries).height ≤ Depth.limit

/-- Messages one behind the other. -/
def BuiltMessage.concat (messages : List s.BuiltMessage) : ByteArray :=
  messages.foldr (fun m behind ↦ m.bytes ++ behind) .empty

/-- What is built is its tag and the fields of the normal object. -/
theorem wireForm_of_build (hsound : s.Sound) (hnames : s.NamesApart) {c : Combinator}
    {name : String} {entries : Entries} {bytes : ByteArray} (hname : s.combinator? name = some c)
    (hbuild : (s.build held name entries).outcome = .ok bytes) :
    ∃ body sites, bytes = c.located.tagBytes ++ body ∧
      s.WireForm (.fields c.fields .empty (s.normalObject c entries).fields) body sites := by
  obtain ⟨d, masks, body, hd, hmasks, hbody, hbytes⟩ := (build_eq_ok_iff hsound).mp hbuild
  obtain rfl := Option.some.inj (hname.symm.trans hd)
  have hnumbered := (hsound.combinator_sound c (mem_of_combinator? hname).1).numbered
  obtain ⟨rfl, -, -⟩ := (resolveMasks_eq_ok_iff hnumbered).mp hmasks
  obtain ⟨sites, hform⟩ := hbody.readsBack hsound hnames 0 .empty hnumbered nofun
  exact ⟨body, sites, hbytes, hform⟩

namespace BuiltMessage

/-- What a loop finds is a message, as it is read by its name from its own bytes. -/
def IsFoundAs (m : s.BuiltMessage) (entry : Object × Nat × Nat) : Prop :=
  entry.2.2 = m.bytes.size ∧ s.read 0 (.named m.name) m.bytes 0 = .ok (entry.1, m.bytes.size)

/-- A message is read under its name, and wherever its bytes stand it is the next object. -/
theorem reads (hsound : s.Sound) (hnames : s.NamesApart) (m : s.BuiltMessage) :
    ∃ o, s.read 0 (.named m.name) m.bytes 0 = .ok (o, m.bytes.size) ∧
      ∀ buffer pos, Stands m.bytes buffer pos →
        s.readNext 0 .any buffer pos = .ok (o, m.bytes.size) := by
  obtain ⟨hmem, hname⟩ := mem_of_combinator? m.combinator?_eq
  obtain ⟨tag, htag⟩ := Option.isSome_iff_exists.mp m.tagged
  obtain ⟨body, sites, hbytes, hform⟩ :=
    wireForm_of_build hsound hnames m.combinator?_eq m.build_eq
  have hheader : m.combinator.located.tagBytes.size = tagLength := by
    rw [size_tagBytes_located, Combinator.header, htag]
    rfl
  refine ⟨s.normalObject m.combinator m.entries, ?_, ?_⟩
  · rw [← hname, hbytes]
    exact read_named_eq_ok hsound hmem (size_tagBytes_located _) hform m.height_le (Stands.self _)
  · intro buffer pos hstands
    have hlocated : m.combinator.located = ⟨m.combinator, tagLength⟩ := by
      rw [Combinator.located, Combinator.header, htag]
      rfl
    have hleads : s.Leads .any m.combinator.located := by
      rw [hlocated]
      exact .any (hsound.byTag?_eq hmem htag)
    have hreference : Kind.anyObject.reference? = some .any := rfl
    have hobject := WireForm.object hreference hleads hform
    rw [hbytes] at hstands ⊢
    have hdecode := hobject.readsAt m.height_le hstands
    obtain ⟨⟨o, used⟩, hread, hpair⟩ := map_ok_iff.mp hdecode
    cases hpair
    rw [ByteArray.size_append, hheader] at hread ⊢
    refine readNext_eq_ok_iff.mpr ⟨?_, Nat.add_pos_left (by decide) _⟩
    rw [read_eq_readWithin]
    exact hread

/-- The loop over messages that stand one behind the other to the end of a buffer takes just these
messages. -/
theorem streams (hsound : s.Sound) (hnames : s.NamesApart) :
    ∀ (messages : List s.BuiltMessage) (pos : Nat), pos + (concat messages).size = buffer.size →
      Stands (concat messages) buffer pos →
        ∃ found, s.Streams 0 .any buffer pos found none ∧
          List.Forall₂ IsFoundAs messages found := by
  intro messages
  induction messages with
  | nil => exact fun pos hend _ ↦ ⟨[], .finished (Nat.le_of_eq hend.symm), .nil⟩
  | cons m rest ih =>
    intro pos hend hstands
    obtain ⟨o, hread, hnext⟩ := m.reads hsound hnames
    obtain ⟨hfront, hbehind⟩ := Stands.append_iff.mp hstands
    have hfound := hnext buffer pos hfront
    have hsize : (concat (m :: rest)).size = m.bytes.size + (concat rest).size :=
      ByteArray.size_append
    have hused := readNext_pos hfound
    obtain ⟨found, hrun, hall⟩ := ih (pos + m.bytes.size) (by omega) hbehind
    exact ⟨(o, pos, m.bytes.size) :: found, .next (by omega) hfound hrun,
      .cons ⟨rfl, hread⟩ hall⟩

/-- Found messages take as many bytes as the messages have. -/
theorem taken_eq {messages : List s.BuiltMessage} {found : List (Object × Nat × Nat)}
    (h : List.Forall₂ IsFoundAs messages found) :
    taken found = (messages.map fun m ↦ m.bytes.size).sum := by
  induction h with
  | nil => rfl
  | @cons m entry messages found hm _ ih =>
    obtain ⟨o, pos, used⟩ := entry
    rw [taken_cons, List.map_cons, List.sum_cons, ih, ← hm.1]

end BuiltMessage

/-- The loop over messages that were put together finds each of them at its place, as it is read by
its name, and no error. Over any buffer the loop comes to an end, and the objects that it finds
cover the buffer up to its end or to the place of an error. -/
theorem stream_recovers_concat :
    (∀ (source : String) (s : Schema), compile source = .ok s → s.NamesApart →
      ∀ messages : List s.BuiltMessage, ∃ found : List (Object × Nat × Nat),
        s.stream 0 .any (BuiltMessage.concat messages) #[] 0 = (found.toArray, none) ∧
        found.length = messages.length ∧
        ∀ i (hm : i < messages.length) (hf : i < found.length),
          found[i].2.1 = ((messages.take i).map fun m ↦ m.bytes.size).sum ∧
          found[i].2.2 = messages[i].bytes.size ∧
          s.read 0 (.named messages[i].name) messages[i].bytes 0 =
            .ok (found[i].1, messages[i].bytes.size)) ∧
    ∀ (s : Schema) (held : Nat) (r : Reference) (buffer : ByteArray),
      ∃ (found : List (Object × Nat × Nat)) (stop : Option (Nat × Error)),
        s.Streams held r buffer 0 found stop ∧
        s.stream held r buffer #[] 0 = (found.toArray, stop) ∧
        s.Covers held r buffer 0 found stop ∧
        4 * found.length ≤ buffer.size := by
  constructor
  · intro source s hcompile hnames messages
    obtain ⟨found, hrun, hall⟩ := BuiltMessage.streams (sound_of_compile hcompile) hnames messages 0
      (Nat.zero_add _) (Stands.self _)
    have hcovers := hrun.covers (Nat.zero_le _)
    refine ⟨found, by simpa using hrun.stream_eq #[], hall.length_eq.symm, ?_⟩
    intro i hm hf
    obtain ⟨hused, hread⟩ := hall.get hm hf
    refine ⟨?_, hused, hread⟩
    rw [hcovers.place_eq i hf, Nat.zero_add, BuiltMessage.taken_eq (List.forall₂_take i hall)]
  · intro s held r buffer
    obtain ⟨found, stop, hrun⟩ := s.exists_streams held r buffer 0
    have hcovers := hrun.covers (Nat.zero_le _)
    refine ⟨found, stop, hrun, by simpa using hrun.stream_eq #[], hcovers, ?_⟩
    have hfits := hcovers.le_size
    rw [Nat.zero_add] at hfits
    exact Nat.le_trans hcovers.four_mul_length_le hfits

/-- A line with a label and a next line. -/
def lineMessage : lineSchema.BuiltMessage where
  name := "line"
  combinator := line
  entries := [("label", .bytes ⟨#[97]⟩),
    ("next", .object ⟨"line", none, [("points", .vector [.int 7])]⟩), ("points", .vector [])]
  bytes := lineBytes
  combinator?_eq := rfl
  tagged := rfl
  build_eq := ok_of_toOption (by decide +kernel)
  height_le := by decide +kernel

/-- Two lines that stand one behind the other are found again. -/
theorem stream_recovers_lines :
    ∃ found : List (Object × Nat × Nat),
      lineSchema.stream 0 .any (lineBytes ++ (lineBytes ++ .empty)) #[] 0 =
        (found.toArray, none) ∧
      found.map Prod.snd = [(0, 32), (32, 32)] := by
  obtain ⟨found, hstream, hlength, hall⟩ := stream_recovers_concat.1 lineSource lineSchema
    compile_lineSource (by decide +kernel) [lineMessage, lineMessage]
  refine ⟨found, hstream, ?_⟩
  match found, hlength, hall with
  | [first, second], _, hall =>
    obtain ⟨hplace, hused, -⟩ := hall 0 (by decide) Nat.two_pos
    obtain ⟨hplace', hused', -⟩ := hall 1 (by decide) Nat.one_lt_two
    exact congrArg₂ (fun a b ↦ [a, b]) (Prod.ext hplace hused) (Prod.ext hplace' hused')

end Schema

end TypeLang
