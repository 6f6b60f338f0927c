import TabBoard.Board.Action
import TabBoard.Delivery.EventStream
import TabBoard.Delivery.Gateway
import TabBoard.Proofs.EventSource
import TabBoard.Proofs.Http.Restart
import TabBoard.Proofs.Json.Printing
import TabBoard.Proofs.Records
import Mathlib.Data.List.TakeWhile
import Mathlib.Data.Option.Basic

/-!
# Statuses on the wire

A status leaves in three ways: as the body that answers a request, in the frames of a direct stream,
and as the data of an event that a request to the gateway holds. Each of them prints JSON, in which
no control character stands by itself, and the last prints it into a text of JSON again.

**Frames.** The data of a frame therefore stays on its line (`Frame.oneLine_data`), so a frame is
four lines (`Frame.linesFrom_toText`), these hand out its message and leave no event under way
(`Frame.run_lines`), and by induction a stream hands out the messages of its frames and no others
(`Frame.messages_octets`).

**Theorem (`Status.kept_on_wire`).** What arrives in each of these ways is what was sent, and so two
different statuses, streams or updates never look alike, whatever their messages say.
-/

namespace TabBoard

open Json (Document)
open EventSource (Message OneLine Reader linesFrom)

/-! ## Records that are read back -/

namespace Status

@[simp] theorem proper_toJson (s : Status) : s.toJson.proper = true := by
  rw [toJson, Json.proper_ofMembers]
  simp [members, Json.proper]

theorem decoder_toJson (s : Status) (depth : Nat) : decoder (depth + 1) s.toJson = .ok s := by
  obtain ⟨state, message⟩ := s
  rw [decoder, toJson, Json.record_ofMembers (by simp [members]) (by simp [members])]
  cases state <;> cases message <;> rfl

theorem decode_render (s : Status) : (Document.ofText s.toJson.render).decode decoder = .ok s := by
  rw [Json.decode_render decoder s.proper_toJson]
  exact decoder_toJson s _

namespace Update

@[simp] theorem proper_toJson (u : Update) : u.toJson.proper = true := by
  rw [toJson, Json.proper_ofMembers]
  simp [members, Json.proper, Json.int]

/-- The number of a tab has 64 bits. -/
theorem decoder_toJson {u : Update} (h : u.tab ≤ Decimal.max64) (depth : Nat) :
    decoder (depth + 1) u.toJson = .ok u := by
  obtain ⟨tab, state, message⟩ := u
  rw [decoder, toJson, Json.record_ofMembers (by simp [members]) (by simp [members])]
  show (do
    let tab ← Json.Decoder.nat Decimal.max64 depth (.nat tab)
    _) = _
  rw [Json.decoder_nat h]
  cases state <;> cases message <;> rfl

theorem decode_render {u : Update} (h : u.tab ≤ Decimal.max64) :
    (Document.ofText u.toJson.render).decode decoder = .ok u := by
  rw [Json.decode_render decoder u.proper_toJson]
  exact decoder_toJson h _

end Update

end Status

namespace Gateway

@[simp] theorem proper_body (token : String) (event : Option OutboundEvent) :
    (body token event).proper = true := by
  cases event <;> simp [body, Json.proper]

theorem bodyDecoder_body (token : String) (event : Option OutboundEvent) (depth : Nat) :
    bodyDecoder (depth + 2) (body token event) = .ok (token, event, event.isNone) := by
  cases event with
  | none =>
    rw [bodyDecoder, body, Json.record_ofMembers (by simp) (by simp)]
    rfl
  | some e =>
    rw [bodyDecoder, body, Json.record_ofMembers (by simp) (by simp)]
    rfl

theorem decode_body (token : String) (event : Option OutboundEvent) :
    (Document.ofText (body token event).render).decode bodyDecoder =
      .ok (token, event, event.isNone) := by
  rw [Json.decode_render bodyDecoder (proper_body token event)]
  exact bodyDecoder_body token event _

end Gateway

/-! ## Frames -/

namespace Frame

/-- What a client is handed for the frame. -/
def message (f : Frame) : Message := ⟨f.event, f.data, ""⟩

/-- The frame that a message shows, if there is one. -/
def ofMessage? (m : Message) : Option Frame :=
  if m.event = Frame.heartbeat.event then some .heartbeat
  else if m.event = "status" then
    match (Document.ofText m.data).decode Status.decoder with
    | .ok s => some (.status s)
    | .error _ => none
  else none

theorem ofMessage?_message (f : Frame) : ofMessage? f.message = some f := by
  cases f with
  | status s =>
    have h := s.decode_render
    simp only [ofMessage?, message, event, data, h]
    rfl
  | heartbeat => rfl

/-- The octets of frames, one behind the other. -/
def octets (fs : List Frame) : Text.Utf8.Octets := fs.flatMap fun f => Text.Utf8.encode f.toText

/-- A field on its line. -/
def fieldLine (name value : String) : List Char := name.toList ++ ':' :: ' ' :: value.toList

theorem toList_toText (f : Frame) : f.toText.toList =
    fieldLine "event" f.event ++ '\n' :: (fieldLine "data" f.data ++ '\n' ::
      (fieldLine "retry" "3000" ++ '\n' :: ['\n'])) := by
  have hretry : Nat.toDigits 10 3000 = ['3', '0', '0', '0'] := by decide
  simp [toText, fieldLine, retryMillis, hretry]
  rfl

/-- The data of a frame has no line break in it, whatever its message says. -/
theorem oneLine_data (f : Frame) : OneLine f.data.toList := by
  have hproper : ∃ j : Json, f.data = j.render ∧ j.proper = true := by
    cases f with
    | status s => exact ⟨_, rfl, s.proper_toJson⟩
    | heartbeat => exact ⟨_, rfl, rfl⟩
  obtain ⟨j, hdata, hj⟩ := hproper
  intro c hc
  rw [hdata] at hc
  have hcontrol := Json.not_control_of_mem_render hj hc
  constructor
  · rintro rfl
    exact hcontrol (by decide)
  · rintro rfl
    exact hcontrol (by decide)

theorem oneLine_event (f : Frame) : OneLine f.event.toList := by
  have hall : OneLine "status".toList ∧ OneLine "heartbeat".toList := by decide
  cases f with
  | status s => exact hall.1
  | heartbeat => exact hall.2

theorem oneLine_fieldLine {name value : String} (hname : OneLine name.toList)
    (hvalue : OneLine value.toList) : OneLine (fieldLine name value) := by
  intro c hc
  simp only [fieldLine, List.mem_append, List.mem_cons] at hc
  obtain hc | rfl | rfl | hc := hc
  · exact hname c hc
  · decide
  · decide
  · exact hvalue c hc

/-- A frame is three fields and an empty line. -/
theorem linesFrom_toText (f : Frame) (rest : List Char) :
    linesFrom [] (f.toText.toList ++ rest) =
      fieldLine "event" f.event :: fieldLine "data" f.data :: fieldLine "retry" "3000" :: [] ::
        linesFrom [] rest := by
  have hevent : OneLine (fieldLine "event" f.event) :=
    oneLine_fieldLine (by decide) f.oneLine_event
  have hdata : OneLine (fieldLine "data" f.data) := oneLine_fieldLine (by decide) f.oneLine_data
  have hretry : OneLine (fieldLine "retry" "3000") := by decide
  have hempty : OneLine [] := by decide
  rw [toList_toText, List.append_assoc, List.cons_append, EventSource.linesFrom_append hevent,
    List.append_assoc, List.cons_append, EventSource.linesFrom_append hdata, List.append_assoc,
    List.cons_append, EventSource.linesFrom_append hretry]
  have h := EventSource.linesFrom_append hempty [] rest
  simpa using h

/-- **The lines of a frame hand out its message**, and leave no event under way. -/
theorem run_lines (f : Frame) (retry : Option Nat) (ls : List (List Char)) :
    Reader.run ⟨[], [], [], retry⟩ (fieldLine "event" f.event :: fieldLine "data" f.data ::
        fieldLine "retry" "3000" :: [] :: ls) =
      f.message :: Reader.run ⟨[], [], [], some 3000⟩ ls := by
  have hevent : f.event.toList ≠ [] := by cases f <;> simp [event]
  have hretry : Reader.line ⟨f.event.toList, f.data.toList ++ ['\n'], [], retry⟩
      ("retry".toList ++ ':' :: ' ' :: "3000".toList) = _ :=
    Reader.line_retry _ (by decide) (by decide)
  have hempty := Reader.line_dispatch
    ⟨f.event.toList, f.data.toList ++ ['\n'], [], some 3000⟩ hevent rfl
  simp only [Reader.run, fieldLine, Reader.line_event, Reader.line_data, List.nil_append, hretry,
    show Json.natOfDigits "3000".toList = 3000 from rfl, hempty, Option.toList_none,
    Option.toList_some, List.cons_append, String.ofList_toList]
  rfl

/-- What is handed out for frames. -/
theorem run_toText (fs : List Frame) (retry : Option Nat) :
    Reader.run ⟨[], [], [], retry⟩ (linesFrom [] (fs.flatMap fun f => f.toText.toList)) =
      fs.map message := by
  induction fs generalizing retry with
  | nil => rfl
  | cons f fs ih =>
    rw [List.flatMap_cons, linesFrom_toText, run_lines, ih]
    rfl

theorem octets_eq (fs : List Frame) :
    octets fs = Text.Utf8.encode (String.ofList (fs.flatMap fun f => f.toText.toList)) := by
  have htext (f : Frame) : Text.Utf8.encode f.toText =
      f.toText.toList.flatMap String.utf8EncodeChar := by
    rw [← Text.Utf8.encode_ofList, String.ofList_toList]
  rw [Text.Utf8.encode_ofList, List.flatMap_assoc, octets]
  simp only [htext]

/-- **The octets of frames hand out the messages of exactly these frames**, in their order. -/
theorem messages_octets (fs : List Frame) : EventSource.messages (octets fs) = fs.map message := by
  rw [EventSource.messages, octets_eq, Text.Utf8.decodeLossy_encode, String.toList_ofList,
    EventSource.messagesOf, ← run_toText fs none]
  cases fs with
  | nil => rfl
  | cons f fs =>
    -- no byte order mark comes first, because the name of a field does
    rw [List.flatMap_cons, toList_toText]
    rfl

end Frame

/-! ## Requests for a status -/

namespace Http

/-- The request asks for the status of the tab: `GET /api/status/i`. -/
structure AsksFor (r : Request) (i : Nat) : Prop where
  method : r.method = "GET"
  path : ∃ segment, '/' ∉ segment ∧ r.path = "/api/status/".toList ++ segment ∧
    tabIndex (String.ofList segment) = .ok i

variable {i : Nat} {r : Request}

/-- No mark is among the digits of a number. -/
theorem ne_of_mem_toDigits {c d : Char} (hc : c ∈ Nat.toDigits 10 i)
    (hd : d.isDigit = false) : c ≠ d := by
  rintro rfl
  rw [(Json.digits_toDigits i).2 c hc] at hd
  cases hd

theorem natural?_toDigits (h : i ≤ Decimal.max64) :
    Decimal.natural? Decimal.max64 (String.ofList (Nat.toDigits 10 i)) = some i := by
  have hunsigned : Decimal.unsigned (Nat.toDigits 10 i) = Nat.toDigits 10 i := by
    unfold Decimal.unsigned
    split
    · next heq =>
      have hplus : '+' ∈ Nat.toDigits 10 i := by simp [heq]
      exact absurd rfl (ne_of_mem_toDigits hplus rfl)
    · rfl
  have hvalue : Decimal.ofDigits (Nat.toDigits 10 i) = i := Json.natOfDigits_toDigits i
  have hdigits : (Nat.toDigits 10 i).all Char.isDigit = true :=
    List.all_eq_true.2 (Json.digits_toDigits i).2
  rw [Decimal.natural?, String.toList_ofList, hunsigned, hvalue]
  simp [hdigits, h, Nat.toDigits_ne_nil]

/-- The digits of a number name the tab of this number. -/
theorem tabIndex_toDigits (h : i ≤ Decimal.max64) :
    tabIndex (String.ofList (Nat.toDigits 10 i)) = .ok i := by
  have hplain : ∀ c ∈ Nat.toDigits 10 i, c.toNat < 0x80 ∧ (c == '%') = false := by
    intro c hc
    have hhigh := (Json.toNat_of_isDigit ((Json.digits_toDigits i).2 c hc)).2
    exact ⟨by omega, beq_eq_false_iff_ne.2 (ne_of_mem_toDigits hc rfl)⟩
  have hdecode := @Text.Percent.decode_encode (· == '%') rfl (Nat.toDigits 10 i)
  rw [Text.Percent.encode_eq_self hplain] at hdecode
  rw [tabIndex, hdecode, Text.Utf8.decode?_encode]
  simp only [natural?_toDigits h]

theorem asksFor_of_uri (h : i ≤ Decimal.max64) (hmethod : r.method = "GET")
    (huri : r.uri = s!"/api/status/{i}") : AsksFor r i := by
  have hchars : r.uri.toList = "/api/status/".toList ++ Nat.toDigits 10 i := by
    simp [huri]
    rfl
  have hmark {d : Char} (hpath : d ∉ "/api/status/".toList) (hd : d.isDigit = false) :
      r.uri.toList.takeWhile (· != d) = r.uri.toList := by
    refine List.takeWhile_eq_self_iff.2 fun c hc => bne_iff_ne.2 ?_
    rw [hchars, List.mem_append] at hc
    obtain hc | hc := hc
    · rintro rfl
      exact hpath hc
    · exact ne_of_mem_toDigits hc hd
  have haddress : r.address = r.uri.toList := hmark (by decide) rfl
  refine ⟨hmethod, Nat.toDigits 10 i, fun hslash => ne_of_mem_toDigits hslash rfl rfl, ?_,
    tabIndex_toDigits h⟩
  rw [Request.path, haddress, hmark (by decide) rfl, hchars]

theorem ofPath_status {segment : List Char} (hslash : '/' ∉ segment) (hne : segment ≠ []) :
    Route.ofPath? ("/api/status/".toList ++ segment) =
      some (.status (String.ofList segment)) := by
  have hpath : "/api/status/".toList ++ segment =
      [] ++ '/' :: ("api".toList ++ '/' :: ("status".toList ++ '/' :: segment)) := rfl
  have hpieces : Text.splitAll '/' ("/api/status/".toList ++ segment) =
      [[], "api".toList, "status".toList, segment] := by
    rw [hpath, Text.splitAll_append (by simp), Text.splitAll_append (by decide),
      Text.splitAll_append (by decide), Text.splitAll_of_not_mem hslash]
  unfold Route.ofPath?
  rw [hpieces]
  simp [hne]

/-- The answer is the status of the tab. -/
theorem AsksFor.action (h : AsksFor r i) {b : Board} {s : Status} (hs : b.store.current i = .ok s)
    (now : Moment) : b.action now r = .answer (.json 200 s.toJson) := by
  obtain ⟨segment, hslash, hpath, hindex⟩ := h.path
  have hne : segment ≠ [] := by
    rintro rfl
    obtain ⟨e, he⟩ := tabIndex_empty
    cases hindex.symm.trans he
  have hstatus : b.statusAction (String.ofList segment) = .ok (.answer (.json 200 s.toJson)) := by
    unfold Board.statusAction
    rw [hindex]
    show (do
      let status ← Except.mapError Error.ofUnknownTab (b.store.current i)
      _) = _
    rw [hs]
    rfl
  unfold Board.action
  rw [hpath, ofPath_status hslash hne, h.method]
  simp [Route.methods, Board.routeAction, hstatus, Board.answerOr]

end Http

/-! ## Nothing is lost on the way -/

namespace Status

/-- What a message says neither ends its frame nor hides what was sent. -/
structure KeptOnWire : Prop where
  /-- `GET /api/status/i` asks for the status of tab `i`. -/
  asked : ∀ (r : Http.Request) (i : Nat), i ≤ Decimal.max64 → r.method = "GET" →
    r.uri = s!"/api/status/{i}" → Http.AsksFor r i
  /-- The octets that answer a request hold the status of its tab. -/
  answered : ∀ (b : Board) (now : Moment) (r : Http.Request) (i : Nat) (s : Status),
    Http.AsksFor r i → b.store.current i = .ok s →
    ∃ response body, b.action now r = .answer response ∧ response.status = 200 ∧
      response.body = some body ∧
      (Document.ofOctets (Text.Utf8.encode body)).decode decoder = .ok s
  /-- A client is handed exactly the frames that were sent, in their order. -/
  streamed : ∀ fs : List Frame,
    EventSource.messages (Frame.octets fs) = fs.map Frame.message ∧
      (EventSource.messages (Frame.octets fs)).map Frame.ofMessage? = fs.map some
  /-- The octets of a request to the gateway hold the token and an event of the name `tab_status`,
  and the data of this event holds the update. -/
  pushed : ∀ (g : Gateway) (token : String) (u : Update), u.tab ≤ Decimal.max64 →
    ∃ e, (Document.ofOctets (Text.Utf8.encode (g.request token (some (.ofUpdate u))).body)).decode
        Gateway.bodyDecoder = .ok (token, some e, false) ∧
      e.name = "tab_status" ∧ (Document.ofText e.data).decode Update.decoder = .ok u
  /-- Two statuses, two streams or two updates never look alike. -/
  answersApart : ∀ s s' : Status, s.toJson.render = s'.toJson.render → s = s'
  streamsApart : ∀ fs fs' : List Frame, Frame.octets fs = Frame.octets fs' → fs = fs'
  pushesApart : ∀ (g g' : Gateway) (token token' : String) (u u' : Update),
    u.tab ≤ Decimal.max64 → u'.tab ≤ Decimal.max64 →
    (g.request token (some (.ofUpdate u))).body = (g'.request token' (some (.ofUpdate u'))).body →
    token = token' ∧ u = u'

/-- **Statuses survive every format in which they are sent**, whatever their messages are. -/
theorem kept_on_wire : KeptOnWire := by
  have hpushed (g : Gateway) (token : String) (u : Update) :
      (Document.ofText (g.request token (some (.ofUpdate u))).body).decode Gateway.bodyDecoder =
        .ok (token, some (.ofUpdate u), false) := Gateway.decode_body token _
  have hstreamed (fs : List Frame) :
      (EventSource.messages (Frame.octets fs)).map Frame.ofMessage? = fs.map some := by
    rw [Frame.messages_octets, List.map_map]
    exact List.map_congr_left fun f _ => f.ofMessage?_message
  refine ⟨?_, ?_, ?_, ?_, ?_, ?_, ?_⟩
  · intro r i hi hmethod huri
    exact Http.asksFor_of_uri hi hmethod huri
  · intro b now r i s hr hs
    refine ⟨_, _, hr.action hs now, rfl, rfl, ?_⟩
    rw [Json.Document.ofOctets_encode]
    exact s.decode_render
  · intro fs
    exact ⟨Frame.messages_octets fs, hstreamed fs⟩
  · intro g token u hu
    rw [Json.Document.ofOctets_encode]
    exact ⟨_, hpushed g token u, rfl, Update.decode_render hu⟩
  · intro s s' h
    have hs := s.decode_render
    rw [h, s'.decode_render] at hs
    exact (Except.ok.inj hs).symm
  · intro fs fs' h
    have hfs := hstreamed fs
    rw [h, hstreamed fs'] at hfs
    exact (List.map_injective_iff.2 (Option.some_injective _) hfs).symm
  · intro g g' token token' u u' hu hu' h
    have hbody := hpushed g token u
    rw [h, hpushed g' token' u'] at hbody
    obtain ⟨rfl, hevent⟩ : token' = token ∧ OutboundEvent.ofUpdate u' = .ofUpdate u := by
      simpa using hbody
    have hdata := congrArg OutboundEvent.data hevent
    simp only [OutboundEvent.ofUpdate] at hdata
    have hback := Update.decode_render hu
    rw [← hdata, Update.decode_render hu'] at hback
    exact ⟨rfl, (Except.ok.inj hback).symm⟩

end Status

end TabBoard
