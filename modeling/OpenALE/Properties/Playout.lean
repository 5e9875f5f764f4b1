import OpenALE.App.AlsaDevice

/-!
# When a word is on the air

The state machine is told of every word it handed over by a callback of the main thread. The audio
thread knows when the last frame of a word is written, and the card what it has played of that.

Results:
* `completions_counted`: after a tick, as many callbacks were called as words were counted.
* `completed_after_played`: a callback is called when its word is played to the last sample.
* `drained_complete`: none is missing once the card has played everything.
-/

namespace OpenALE

namespace Modulator

/-- The words the modulator still holds, in order. -/
def held (m : Modulator) : List Nat := if m.wordEnqueued then m.pendingTx49 :: m.tx49Queue else []

variable (m : Modulator)

theorem held_enqueueWord (w : ALEWord) : (m.enqueueWord w).held = m.held ++ [w.encode] := by
  unfold enqueueWord enqueueTx49 held
  by_cases h : m.wordEnqueued = true
  · rw [dif_pos h, if_pos h, if_pos h, List.cons_append]
  · rw [dif_neg h, if_pos rfl, if_neg h, List.nil_append]
    exact congrArg (w.encode :: ·) (m.behind (Bool.eq_false_iff.mpr h))

@[simp] theorem held_abort : m.abort.held = [] := rfl

/-- What is pulled is the first word held. -/
theorem held_pullSymbolFrame : m.held = m.pullSymbolFrame.1.toList ++ m.pullSymbolFrame.2.held := by
  unfold pullSymbolFrame held
  by_cases h : m.wordEnqueued = true
  · rw [if_pos h, if_pos h, advanceQueue]
    cases m.tx49Queue with
    | nil => rfl
    | cons tx49 rest => rfl
  · rw [if_neg h, if_neg h, if_neg h]
    rfl

end Modulator

namespace AlsaDevice

variable {d : AlsaDevice}

/-- The device as it was opened. -/
def opened (periodFrames : Nat) : AlsaDevice := { periodFrames }

/-! ## Callbacks and words -/

/-- Callbacks and words are counted alike by the two threads. -/
structure Counted (d : AlsaDevice) : Prop where
  armed : d.framesArmed = d.transmitted.length
  handed : d.transmitted = d.fired ++ d.frameNotifyQueue.map Prod.snd
  numbered : d.frameNotifyQueue.map Prod.fst =
    List.range' (d.fired.length + 1) d.frameNotifyQueue.length
  early : d.fired.length ≤ d.framesRendered
  waiting : d.ends.drop d.framesRendered = d.wordPlayTargets
  counted : d.framesRendered ≤ d.ends.length
  ended : d.ends.length + d.atFramePending.toNat = d.pulled.length
  held : d.pulled.length + d.modulator.held.length ≤ d.transmitted.length
  /-- A word that is being played has samples left. -/
  pending : d.atFramePending = true → d.atRenderBuf ≠ []

theorem counted_opened (periodFrames : Nat) : Counted (opened periodFrames) where
  armed := rfl
  handed := rfl
  numbered := rfl
  early := le_rfl
  waiting := rfl
  counted := le_rfl
  ended := rfl
  held := le_rfl
  pending := nofun

/-- The first entries of a numbered queue. -/
theorem takeWhile_numbered {α : Type*} {queue : List (Nat × α)} {first : Nat}
    (h : queue.map Prod.fst = List.range' (first + 1) queue.length) (upTo : Nat) :
    (queue.takeWhile fun n => n.1 ≤ upTo) = queue.take (upTo - first) ∧
      (queue.dropWhile fun n => n.1 ≤ upTo) = queue.drop (upTo - first) := by
  induction queue generalizing first with
  | nil => simp
  | cons n queue ih =>
    rw [List.map_cons, List.length_cons, List.range'_succ, List.cons.injEq] at h
    obtain ⟨hn, hrest⟩ := h
    obtain ⟨htake, hdrop⟩ := ih hrest
    by_cases hle : n.1 ≤ upTo
    · have hlater : upTo - first = upTo - (first + 1) + 1 := by omega
      rw [List.takeWhile_cons_of_pos (by simpa using hle),
        List.dropWhile_cons_of_pos (by simpa using hle), htake, hdrop, hlater]
      exact ⟨rfl, rfl⟩
    · have hnone : upTo - first = 0 := by omega
      rw [List.takeWhile_cons_of_neg (by simpa using hle),
        List.dropWhile_cons_of_neg (by simpa using hle), hnone]
      exact ⟨rfl, rfl⟩

/-- There are callbacks for all the words that were counted. -/
theorem Counted.length_queue (h : Counted d) :
    d.framesRendered - d.fired.length ≤ d.frameNotifyQueue.length := by
  have hlength := congrArg List.length h.handed
  rw [List.length_append, List.length_map] at hlength
  have := h.counted
  have := h.ended
  have := h.held
  omega

/-- A tick calls a callback for each word that was counted. -/
theorem Counted.tick_eq (h : Counted d) : d.tick =
    { d with
      frameNotifyQueue := d.frameNotifyQueue.drop (d.framesRendered - d.fired.length)
      fired := d.fired ++ (d.frameNotifyQueue.take (d.framesRendered - d.fired.length)).map
        Prod.snd } := by
  obtain ⟨htake, hdrop⟩ := takeWhile_numbered h.numbered d.framesRendered
  unfold AlsaDevice.tick
  dsimp only
  rw [htake, hdrop]

theorem Counted.length_tick (h : Counted d) : d.tick.fired.length = d.framesRendered := by
  rw [h.tick_eq]
  dsimp only
  rw [List.length_append, List.length_map, List.length_take, Nat.min_eq_left h.length_queue]
  have := h.early
  omega

theorem Counted.tick (h : Counted d) : Counted d.tick := by
  have hlength := h.length_tick
  have hqueue := h.length_queue
  rw [h.tick_eq] at hlength ⊢
  exact {
    armed := h.armed
    handed := by
      dsimp only
      rw [List.append_assoc, ← List.map_append, List.take_append_drop]
      exact h.handed
    numbered := by
      rw [List.map_drop, h.numbered, List.drop_range', hlength, List.length_drop]
      congr 1
      have := h.early
      omega
    early := hlength.le
    waiting := h.waiting
    counted := h.counted
    ended := h.ended
    held := h.held
    pending := h.pending }

theorem Counted.transmit (h : Counted d) (w : ALEWord) : Counted (d.transmit w) where
  armed := by
    unfold AlsaDevice.transmit
    dsimp only
    rw [h.armed, List.length_append, List.length_singleton]
  handed := by
    unfold AlsaDevice.transmit
    dsimp only
    rw [List.map_append, ← List.append_assoc, ← h.handed]
    rfl
  numbered := by
    unfold AlsaDevice.transmit
    dsimp only
    have hlength := congrArg List.length h.handed
    rw [List.length_append, List.length_map] at hlength
    rw [List.map_append, h.numbered, List.length_append, List.length_singleton,
      List.range'_1_concat, h.armed, hlength]
    simp only [List.map_cons, List.map_nil, List.append_cancel_left_eq, List.cons.injEq, and_true]
    omega
  early := h.early
  waiting := h.waiting
  counted := h.counted
  ended := h.ended
  held := by
    have := h.held
    unfold AlsaDevice.transmit
    dsimp only
    rw [Modulator.held_enqueueWord, List.length_append, List.length_append, List.length_singleton,
      List.length_singleton]
    omega
  pending := h.pending

/-- A sample of the buffer. -/
theorem Counted.putSample (h : Counted d) (avail : Nat) (pcm symbols : Bool) (scratch : List Int16) :
    Counted (d.putSample avail pcm symbols scratch) := by
  unfold AlsaDevice.putSample
  cases hbuf : d.atRenderBuf with
  | nil => exact h
  | cons x rest =>
    dsimp only
    split_ifs with hlast
    · obtain ⟨hpending, hrest⟩ := hlast
      have hended := h.ended
      rw [hpending] at hended
      exact {
        armed := h.armed
        handed := h.handed
        numbered := h.numbered
        early := h.early
        waiting := by
          dsimp only
          rw [List.drop_append_of_le_length h.counted, h.waiting]
        counted := by
          dsimp only
          rw [List.length_append]
          exact h.counted.trans (Nat.le_add_right _ _)
        ended := by
          dsimp only
          rw [List.length_append]
          exact hended
        held := h.held
        pending := nofun }
    · exact { h with pending := fun hpending hrest => hlast ⟨hpending, hrest⟩ }

theorem Counted.pass (h : Counted d) (pass : Pass) : Counted { d with pass } := { h with }

theorem Counted.fillFrame (h : Counted d) (card : Card) (avail : Nat) (pcm symbols : Bool)
    (scratch : List Int16) : Counted (d.fillFrame card avail pcm symbols scratch) := by
  unfold AlsaDevice.fillFrame
  by_cases hbuf : d.atRenderBuf = []
  · have hidle : d.atFramePending = false := Bool.eq_false_iff.mpr fun hp => h.pending hp hbuf
    rw [if_neg (not_not.mpr hbuf)]
    split_ifs with hpcm hgot hsymbols
    · exact h.pass _
    · refine Counted.putSample ?_ avail pcm symbols scratch
      exact { h with pending := fun hp => Bool.noConfusion (hidle.symm.trans hp) }
    · have hpull := d.modulator.held_pullSymbolFrame
      rcases hword : d.modulator.pullSymbolFrame with ⟨_ | tx49, modulator⟩
      · exact h.pass _
      · rw [hword] at hpull
        have hheld := h.held
        have hended := h.ended
        rw [hpull] at hheld
        rw [hidle] at hended
        refine Counted.putSample ?_ avail pcm symbols scratch
        exact { h with
          ended := by
            dsimp only
            rw [List.length_append]
            exact congrArg (· + 1) hended
          held := by
            dsimp only
            rw [List.length_append] at hheld ⊢
            exact (Nat.add_assoc _ _ _).le.trans hheld
          pending := fun _ => List.cons_ne_nil _ _ }
    · exact h.pass _
  · rw [if_pos hbuf]
    exact h.putSample avail pcm symbols scratch

theorem Counted.startBatch (h : Counted d) (avail : Int) : Counted (d.startBatch avail) := by
  unfold AlsaDevice.startBatch
  split_ifs <;> exact h.pass _

theorem Counted.serviceRender (h : Counted d) (card : Card) : Counted (d.serviceRender card) := by
  unfold AlsaDevice.serviceRender
  cases d.pass with
  | idle => exact { h with }
  | completing played =>
    dsimp only
    cases htargets : d.wordPlayTargets with
    | nil => exact h.startBatch card.avail
    | cons target rest =>
      dsimp only
      split_ifs with hplayed
      · have hwaiting := h.waiting.trans htargets
        have hcounted : d.framesRendered < d.ends.length := by
          by_contra hge
          rw [List.drop_eq_nil_of_le (Nat.le_of_not_lt hge)] at hwaiting
          exact List.cons_ne_nil _ _ hwaiting.symm
        exact { h with
          early := h.early.trans (Nat.le_succ _)
          waiting := by
            dsimp only
            rw [← List.tail_drop, hwaiting]
            rfl
          counted := hcounted }
      · exact h.startBatch card.avail
  | filling avail pcm symbols scratch =>
    dsimp only
    split_ifs
    · exact h.fillFrame card avail pcm symbols scratch
    · exact h.pass _
  | writing rest =>
    dsimp only
    unfold writei
    cases card.written with
    | frames n => exact { h with }
    | again => exact h
    | recovered => exact h
    | failed => exact h.pass _

theorem Counted.step (h : Counted d) (op : DeviceOp) : Counted (d.step op) := by
  cases op with
  | transmit w => exact h.transmit w
  | abort => exact { h with held := (Nat.le_add_right _ _).trans h.held }
  | tick => exact h.tick
  | setSymbolSource set => exact { h with }
  | setPcmSource set => exact { h with }
  | render card => exact h.serviceRender card

theorem counted_run (periodFrames : Nat) (ops : List DeviceOp) :
    Counted (Machine.run step (opened periodFrames) ops) := by
  have hrun : Machine.AllStates step Counted (opened periodFrames) ops :=
    Machine.allStates_of_inv' (fun _ op h => h.step op) (counted_opened periodFrames) ops
  exact hrun.last

/-- **Every word counted is reported, once.** However the two threads interleave, and whatever was
aborted, after a tick the callbacks that were called are the first ones handed over, and as many as
there are words counted. -/
theorem completions_counted (periodFrames : Nat) (ops : List DeviceOp) :
    ((Machine.run step (opened periodFrames) (ops ++ [.tick])).fired.length =
        (Machine.run step (opened periodFrames) ops).framesRendered) ∧
      (Machine.run step (opened periodFrames) ops).fired <+:
        (Machine.run step (opened periodFrames) ops).transmitted ∧
      (Machine.run step (opened periodFrames) ops).framesRendered ≤
        (Machine.run step (opened periodFrames) ops).pulled.length := by
  have h := counted_run periodFrames ops
  refine ⟨?_, ⟨_, h.handed.symm⟩, ?_⟩
  · rw [Machine.run_append]
    exact h.length_tick
  · have := h.counted
    have := h.ended
    omega

/-! ## What the card has played -/

/-- The frames that are written or about to be. -/
def stream (d : AlsaDevice) : List Int16 :=
  d.written ++ match d.pass with
    | .filling _ _ _ scratch => scratch
    | .writing rest => rest
    | _ => []

/-- The samples of a word are in the stream, and end there. -/
def Placed (stream : List Int16) (last : Nat) (word : Nat × List Int16) : Prop :=
  ∃ before, before ++ word.2 <+: stream ∧ (before ++ word.2).length = last

theorem Placed.grow {stream stream' : List Int16} {last : Nat} {word : Nat × List Int16}
    (h : Placed stream last word) (hgrow : stream <+: stream') : Placed stream' last word := by
  obtain ⟨before, hin, hlast⟩ := h
  exact ⟨before, hin.trans hgrow, hlast⟩

/-- Where the words are in the stream. -/
structure Laid (d : AlsaDevice) : Prop extends Counted d where
  total : d.totalWritten = d.written.length
  placed : List.Forall₂ (Placed d.stream) d.ends (d.pulled.take d.ends.length)
  /-- The word being played is in the stream up to what is left of it. -/
  playing : d.atFramePending = true → ∃ word before done, d.pulled.getLast? = some word ∧
    word.2 = done ++ d.atRenderBuf ∧ d.stream = before ++ done
  behind : d.played ≤ d.written.length
  upTo : ∀ played, d.pass = .completing played → played ≤ d.played
  passed : ∀ last ∈ d.ends.take d.framesRendered, last ≤ d.played

theorem laid_opened (periodFrames : Nat) : Laid (opened periodFrames) where
  toCounted := counted_opened periodFrames
  total := rfl
  placed := .nil
  playing := nofun
  behind := le_rfl
  upTo := nofun
  passed := nofun

/-- A step that only moves on in the pass, and perhaps into silence. -/
theorem Laid.pass (h : Laid d) {pass : Pass} (hgrow : d.stream <+: stream { d with pass })
    (hplaying : d.atFramePending = true → stream { d with pass } = d.stream)
    (hupTo : ∀ played, pass = .completing played → played ≤ d.played) : Laid { d with pass } where
  toCounted := h.toCounted.pass pass
  total := h.total
  placed := h.placed.imp fun _ _ hin => hin.grow hgrow
  playing := by
    intro hpending
    rw [hplaying hpending]
    exact h.playing hpending
  behind := h.behind
  upTo := hupTo
  passed := h.passed

theorem Laid.putSample (h : Laid d) {avail : Nat} {pcm symbols : Bool} {scratch : List Int16}
    (hpass : d.pass = .filling avail pcm symbols scratch) :
    Laid (d.putSample avail pcm symbols scratch) := by
  have hcounted := h.toCounted.putSample avail pcm symbols scratch
  have hstream : d.stream = d.written ++ scratch := by rw [stream, hpass]
  unfold AlsaDevice.putSample at hcounted ⊢
  cases hbuf : d.atRenderBuf with
  | nil => exact h
  | cons x rest =>
    rw [hbuf] at hcounted
    dsimp only at hcounted ⊢
    have hgrow : d.stream <+: d.written ++ (scratch ++ [x]) := by
      rw [hstream, ← List.append_assoc]
      exact List.prefix_append _ _
    have hplaced := h.placed.imp fun _ _ hin => hin.grow hgrow
    split_ifs at hcounted ⊢ with hlast
    · -- the last sample of a word
      obtain ⟨hpending, rfl⟩ := hlast
      obtain ⟨word, before, done, hword, hsamples, hin⟩ := h.playing hpending
      have hended : d.ends.length + 1 = d.pulled.length := by
        have := h.ended
        rwa [hpending] at this
      obtain ⟨others, hothers⟩ := List.getLast?_eq_some_iff.mp hword
      have hlength : others.length = d.ends.length := by
        rw [hothers, List.length_append] at hended
        exact (Nat.succ.inj hended).symm
      have hwhole : d.written ++ (scratch ++ [x]) = before ++ word.2 := by
        rw [← List.append_assoc, ← hstream, hin, hsamples, hbuf, List.append_assoc]
      refine { hcounted with
        total := h.total
        placed := ?_
        playing := nofun
        behind := h.behind
        upTo := nofun
        passed := ?_ }
      · dsimp only
        rw [hothers, ← hlength, List.take_left] at hplaced
        rw [List.length_append, List.length_singleton, hended, List.take_length, hothers]
        refine List.rel_append hplaced (.cons ⟨before, ?_, ?_⟩ .nil)
        · exact ⟨[], (List.append_nil _).trans hwhole.symm⟩
        · rw [← hwhole, h.total]
          simp only [List.length_append, List.length_singleton]
      · dsimp only
        rw [List.take_append_of_le_length h.counted]
        exact h.passed
    · refine { hcounted with
        total := h.total
        placed := hplaced
        playing := ?_
        behind := h.behind
        upTo := nofun
        passed := h.passed }
      intro hpending
      obtain ⟨word, before, done, hword, hsamples, hin⟩ := h.playing hpending
      refine ⟨word, before, done ++ [x], hword, ?_, ?_⟩
      · rw [hsamples, hbuf, List.append_assoc]
        rfl
      · change d.written ++ (scratch ++ [x]) = before ++ (done ++ [x])
        rw [← List.append_assoc, ← List.append_assoc, ← hin, hstream]

/-- Silence follows what is in the batch. -/
theorem Laid.fillSilence (h : Laid d) {avail : Nat} {pcm symbols : Bool} {scratch : List Int16}
    (hpass : d.pass = .filling avail pcm symbols scratch) (hidle : d.atFramePending = false) :
    Laid (d.fillSilence avail scratch) := by
  refine h.pass ?_ (fun hp => Bool.noConfusion (hidle.symm.trans hp)) nofun
  rw [stream, hpass]
  change d.written ++ scratch <+: d.written ++ (scratch ++ _)
  rw [← List.append_assoc]
  exact List.prefix_append _ _

theorem Laid.fillFrame (h : Laid d) (card : Card) {avail : Nat} {pcm symbols : Bool}
    {scratch : List Int16} (hpass : d.pass = .filling avail pcm symbols scratch) :
    Laid (d.fillFrame card avail pcm symbols scratch) := by
  unfold AlsaDevice.fillFrame
  by_cases hbuf : d.atRenderBuf = []
  · have hidle : d.atFramePending = false := Bool.eq_false_iff.mpr fun hp => h.pending hp hbuf
    rw [if_neg (not_not.mpr hbuf)]
    split_ifs with hpcm hgot hsymbols
    · exact h.fillSilence hpass hidle
    · refine Laid.putSample ?_ hpass
      exact { h with
        pending := fun hp => Bool.noConfusion (hidle.symm.trans hp)
        playing := fun hp => Bool.noConfusion (hidle.symm.trans hp) }
    · have hpull := d.modulator.held_pullSymbolFrame
      rcases hword : d.modulator.pullSymbolFrame with ⟨_ | tx49, modulator⟩
      · exact h.fillSilence hpass hidle
      · rw [hword] at hpull
        have hheld := h.held
        have hended : d.ends.length = d.pulled.length := by
          have hended := h.ended
          rwa [hidle] at hended
        rw [hpull] at hheld
        refine Laid.putSample ?_ hpass
        exact { h with
          ended := by
            dsimp only
            rw [List.length_append]
            exact congrArg (· + 1) hended
          held := by
            dsimp only
            rw [List.length_append] at hheld ⊢
            exact (Nat.add_assoc _ _ _).le.trans hheld
          pending := fun _ => List.cons_ne_nil _ _
          placed := by
            dsimp only
            rw [List.take_append_of_le_length hended.le]
            exact h.placed
          playing := by
            intro _
            refine ⟨(tx49, card.word.1 :: card.word.2), d.stream, [], ?_, rfl, ?_⟩
            · exact List.getLast?_concat
            · exact (List.append_nil _).symm }
    · exact h.fillSilence hpass hidle
  · rw [if_pos hbuf]
    exact h.putSample hpass

theorem Laid.startBatch (h : Laid d) {played : Nat} (hpass : d.pass = .completing played)
    (avail : Int) : Laid (d.startBatch avail) := by
  have hstream : d.stream = d.written ++ [] := by rw [stream, hpass]
  unfold AlsaDevice.startBatch
  split_ifs
  · exact h.pass ⟨[], (List.append_nil _).trans hstream⟩ (fun _ => hstream.symm) nofun
  · exact h.pass ⟨[], (List.append_nil _).trans hstream⟩ (fun _ => hstream.symm) nofun

/-- The card does not claim to be ahead of what is written, and takes what it is given. -/
def Truthful (d : AlsaDevice) (card : Card) : Pass → Prop
  | .idle => card.delay ≤ d.totalWritten
  | .writing _ => card.written ≠ .failed
  | _ => True

instance (d : AlsaDevice) (card : Card) : DecidablePred (Truthful d card)
  | .idle => inferInstanceAs (Decidable (_ ≤ _))
  | .writing _ => inferInstanceAs (Decidable (_ ≠ _))
  | .completing _ => isTrue trivial
  | .filling .. => isTrue trivial

/-- The card is truthful, and only an idle modulator is aborted. -/
def Sound (d : AlsaDevice) : DeviceOp → Prop
  | .render card => Truthful d card d.pass
  | .abort => d.modulator.held = []
  | _ => True

instance : DecidableRel Sound
  | d, .render card => inferInstanceAs (Decidable (Truthful d card d.pass))
  | d, .abort => inferInstanceAs (Decidable (d.modulator.held = []))
  | _, .transmit _ => isTrue trivial
  | _, .tick => isTrue trivial
  | _, .setSymbolSource _ => isTrue trivial
  | _, .setPcmSource _ => isTrue trivial

theorem Laid.writei (h : Laid d) {rest : List Int16} (hpass : d.pass = .writing rest)
    {written : Written} (hsound : written ≠ .failed) : Laid (d.writei rest written) := by
  have hstream : d.stream = d.written ++ rest := by rw [stream, hpass]
  cases written with
  | frames n =>
    have hsame : stream (d.writei rest (.frames n)) = d.stream := by
      rw [hstream]
      unfold AlsaDevice.writei stream
      dsimp only
      split_ifs with hdone
      · rw [List.append_nil, ← List.append_nil (List.take n rest), ← hdone, List.take_append_drop]
      · rw [List.append_assoc, List.take_append_drop]
    exact { h with
      total := by
        unfold AlsaDevice.writei
        dsimp only
        rw [h.total, List.length_append]
      placed := by
        rw [hsame]
        exact h.placed
      playing := by
        rw [hsame]
        exact h.playing
      behind := by
        unfold AlsaDevice.writei
        dsimp only
        rw [List.length_append]
        exact h.behind.trans (Nat.le_add_right _ _)
      upTo := by
        intro played hp
        unfold AlsaDevice.writei at hp
        dsimp only at hp
        split_ifs at hp }
  | again => exact h
  | recovered => exact h
  | failed => exact absurd rfl hsound

theorem Laid.serviceRender (h : Laid d) {card : Card} (hsound : Sound d (.render card)) :
    Laid (d.serviceRender card) := by
  have hcounted := h.toCounted.serviceRender card
  change Truthful d card d.pass at hsound
  unfold AlsaDevice.serviceRender at hcounted ⊢
  cases hpass : d.pass with
  | idle =>
    rw [hpass] at hsound hcounted
    dsimp only at hcounted ⊢
    have hplaced := h.placed
    have hplaying := h.playing
    rw [stream, hpass] at hplaced hplaying
    have hplayed : d.playedAt card.delay ≤ d.written.length := by
      rw [playedAt, if_pos (Int.toNat_le.mpr hsound), ← h.total]
      exact Nat.sub_le _ _
    exact { hcounted with
      total := h.total
      placed := hplaced
      playing := hplaying
      behind := max_le h.behind hplayed
      upTo := by
        intro played hp
        obtain rfl := Pass.completing.inj hp
        exact le_max_right _ _
      passed := fun last hin => (h.passed last hin).trans (le_max_left _ _) }
  | completing played =>
    rw [hpass] at hcounted
    dsimp only at hcounted ⊢
    cases htargets : d.wordPlayTargets with
    | nil => exact h.startBatch hpass card.avail
    | cons target rest =>
      rw [htargets] at hcounted
      dsimp only at hcounted ⊢
      split_ifs at hcounted ⊢ with hplayed
      · have hwaiting := h.waiting.trans htargets
        have hplaced := h.placed
        have hplaying := h.playing
        have hupTo := h.upTo
        rw [stream, hpass] at hplaced hplaying
        rw [hpass] at hupTo
        exact { hcounted with
          total := h.total
          placed := hplaced
          playing := hplaying
          behind := h.behind
          upTo := hupTo
          passed := by
            dsimp only
            rw [List.take_add, hwaiting, List.take_succ_cons, List.take_zero]
            intro last hin
            rcases List.mem_append.mp hin with hold | hnew
            · exact h.passed last hold
            · rw [List.mem_singleton.mp hnew]
              exact hplayed.trans (h.upTo played hpass) }
      · exact h.startBatch hpass card.avail
  | filling avail pcm symbols scratch =>
    dsimp only
    have hstream : d.stream = d.written ++ scratch := by rw [stream, hpass]
    split_ifs
    · exact h.fillFrame card hpass
    · exact h.pass ⟨[], (List.append_nil _).trans hstream⟩ (fun _ => hstream.symm) nofun
  | writing rest =>
    rw [hpass] at hsound
    exact h.writei hpass hsound

/-! ## Whose samples they are -/

/-- The words pulled with those the modulator holds, and the words handed over. -/
def told (d : AlsaDevice) : List Nat × List ALEWord :=
  (d.pulled.map Prod.fst ++ d.modulator.held, d.transmitted)

theorem told_putSample (d : AlsaDevice) (avail : Nat) (pcm symbols : Bool) (scratch : List Int16) :
    (d.putSample avail pcm symbols scratch).told = d.told := by
  unfold AlsaDevice.putSample
  cases d.atRenderBuf with
  | nil => rfl
  | cons x rest =>
    dsimp only
    split_ifs <;> rfl

theorem told_fillFrame (d : AlsaDevice) (card : Card) (avail : Nat) (pcm symbols : Bool)
    (scratch : List Int16) : (d.fillFrame card avail pcm symbols scratch).told = d.told := by
  unfold AlsaDevice.fillFrame
  split_ifs with hbuf hpcm hgot hsymbols
  · exact told_putSample d avail pcm symbols scratch
  · rfl
  · exact told_putSample _ avail pcm symbols scratch
  · have hpull := d.modulator.held_pullSymbolFrame
    rcases hword : d.modulator.pullSymbolFrame with ⟨_ | tx49, modulator⟩
    · rfl
    · rw [hword] at hpull
      rw [told_putSample]
      unfold told
      dsimp only
      rw [hpull, List.map_append, List.append_assoc]
      rfl
  · rfl

theorem told_startBatch (d : AlsaDevice) (avail : Int) : (d.startBatch avail).told = d.told := by
  unfold AlsaDevice.startBatch
  split_ifs <;> rfl

theorem told_serviceRender (d : AlsaDevice) (card : Card) : (d.serviceRender card).told = d.told := by
  unfold AlsaDevice.serviceRender
  cases d.pass with
  | idle => rfl
  | completing played =>
    dsimp only
    cases d.wordPlayTargets with
    | nil => exact told_startBatch d card.avail
    | cons target rest =>
      dsimp only
      split_ifs
      · rfl
      · exact told_startBatch d card.avail
  | filling avail pcm symbols scratch =>
    dsimp only
    split_ifs
    · exact told_fillFrame d card avail pcm symbols scratch
    · rfl
  | writing rest =>
    unfold AlsaDevice.writei
    cases card.written <;> rfl

/-- The words in the stream are those handed over, and none is missing. -/
structure Kept (d : AlsaDevice) : Prop extends Laid d where
  whose : d.told.1 = d.told.2.map ALEWord.encode

theorem Kept.step (h : Kept d) {op : DeviceOp} (hsound : Sound d op) : Kept (d.step op) := by
  have hcounted := h.toCounted.step op
  cases op with
  | transmit w =>
    refine { h with toCounted := hcounted, whose := ?_ }
    change d.pulled.map Prod.fst ++ (d.modulator.enqueueWord w).held =
      (d.transmitted ++ [w]).map ALEWord.encode
    rw [Modulator.held_enqueueWord, ← List.append_assoc, List.map_append]
    exact congrArg (· ++ [w.encode]) h.whose
  | abort =>
    refine { h with toCounted := hcounted, whose := ?_ }
    have hheld : d.modulator.held = [] := hsound
    change d.pulled.map Prod.fst ++ [] = d.transmitted.map ALEWord.encode
    rw [← hheld]
    exact h.whose
  | tick => exact { h with toCounted := hcounted }
  | setSymbolSource set => exact { h with toCounted := hcounted }
  | setPcmSource set => exact { h with toCounted := hcounted }
  | render card =>
    refine { h.toLaid.serviceRender hsound with whose := ?_ }
    change (d.serviceRender card).told.1 = (d.serviceRender card).told.2.map ALEWord.encode
    rw [told_serviceRender]
    exact h.whose

theorem kept_opened (periodFrames : Nat) : Kept (opened periodFrames) where
  toLaid := laid_opened periodFrames
  whose := rfl

theorem kept_run {periodFrames : Nat} {ops : List DeviceOp}
    (h : Machine.AllSteps step Sound (opened periodFrames) ops) :
    Kept (Machine.run step (opened periodFrames) ops) :=
  Machine.inv_run (fun _ _ hd hop => hd.step hop) (kept_opened periodFrames) h

/-- The samples of a word that was counted are among the frames played. -/
theorem Laid.heard (h : Laid d) {k : Nat} (hk : k < d.framesRendered) :
    ∃ word, d.pulled[k]? = some word ∧ ∃ before, before ++ word.2 <+: d.written.take d.played := by
  have hends : k < d.ends.length := hk.trans_le h.counted
  have hpulled : k < (d.pulled.take d.ends.length).length := h.placed.length_eq ▸ hends
  obtain ⟨before, hin, hlast⟩ := h.placed.get hends hpulled
  rw [List.get_eq_getElem, List.getElem_take] at hin hlast
  have hplayed : d.ends.get ⟨k, hends⟩ ≤ d.played := by
    refine h.passed _ (List.mem_of_getElem? (i := k) ?_)
    rw [List.getElem?_take_of_lt hk]
    exact List.getElem?_eq_getElem hends
  rw [List.length_take] at hpulled
  refine ⟨_, List.getElem?_eq_getElem (hpulled.trans_le (min_le_right _ _)), before, ?_⟩
  have hplayedIn : d.written.take d.played <+: d.written := List.take_prefix _ _
  have htake : d.written.take d.played <+: d.stream := hplayedIn.trans (List.prefix_append _ _)
  refine List.prefix_of_prefix_length_le hin htake ?_
  rw [hlast, List.length_take, Nat.min_eq_left h.behind]
  exact hplayed

/-- **A callback comes when its word is played.** The card takes all that it is given and never
claims to be ahead of it, and the modulator is only aborted when it holds nothing. Then, however the
two threads interleave, the callback called for a word is called after the card has played the word
to its last sample. -/
theorem completed_after_played (periodFrames : Nat) (ops : List DeviceOp)
    (h : Machine.AllSteps step Sound (opened periodFrames) ops) (k : Nat) (w : ALEWord)
    (hw : (Machine.run step (opened periodFrames) ops).fired[k]? = some w) :
    ∃ samples before,
      (Machine.run step (opened periodFrames) ops).pulled[k]? = some (w.encode, samples) ∧
      before ++ samples <+: (Machine.run step (opened periodFrames) ops).written.take
        (Machine.run step (opened periodFrames) ops).played := by
  have hd := kept_run h
  generalize Machine.run step (opened periodFrames) ops = d at hd hw
  obtain ⟨hk, -⟩ := List.getElem?_eq_some_iff.mp hw
  obtain ⟨word, hword, before, hin⟩ := hd.heard (hk.trans_le hd.early)
  refine ⟨word.2, before, ?_, hin⟩
  have hmine : w.encode = word.1 := by
    have hpulled : (d.pulled.map Prod.fst)[k]? = some word.1 := by
      rw [List.getElem?_map, hword]
      rfl
    have htransmitted : (d.transmitted.map ALEWord.encode)[k]? = some w.encode := by
      rw [List.getElem?_map, hd.handed, List.getElem?_append_left hk, hw]
      rfl
    obtain ⟨hlength, -⟩ := List.getElem?_eq_some_iff.mp hpulled
    have hwhose : (d.pulled.map Prod.fst ++ d.modulator.held)[k]? =
        (d.transmitted.map ALEWord.encode)[k]? := congrArg (·[k]?) hd.whose
    rw [List.getElem?_append_left hlength, hpulled, htransmitted] at hwhose
    exact (Option.some.inj hwhose).symm
  rw [hword, hmine]

/-- A short word goes out behind a silent batch. -/
def shortWordOut : List DeviceOp :=
  [.render {}, .render { avail := 2 }, .render {}, .transmit (makeWord .to ['A', 'B', 'C']),
    .render { written := .frames 2 }, .render {}, .render { avail := 3 },
    .render { word := (700, [-700]) }, .render {}, .render {}, .render { written := .frames 1 },
    .render { written := .recovered }, .render { written := .frames 2 }]

/-- Its callback comes with the tick after the card has said that it is played. -/
def shortWord : List DeviceOp :=
  shortWordOut ++ [.tick, .render { delay := 1 }, .render {}, .tick]

/-- Four frames are played then, and the word is the last two of them. -/
theorem completed_after_played_short :
    (Machine.run step (opened 1) shortWord).fired[0]? = some (makeWord .to ['A', 'B', 'C']) ∧
    (Machine.run step (opened 1) shortWord).played = 4 ∧
    ∃ samples before,
      (Machine.run step (opened 1) shortWord).pulled[0]? =
        some ((makeWord .to ['A', 'B', 'C']).encode, samples) ∧
      before ++ samples <+: (Machine.run step (opened 1) shortWord).written.take
        (Machine.run step (opened 1) shortWord).played :=
  ⟨by decide +kernel, by decide +kernel,
    completed_after_played 1 shortWord (by decide +kernel) 0 _ (by decide +kernel)⟩

/-! ## When all is played -/

/-- The words that end within what is played are counted one by one. -/
theorem completing_run {n played : Nat} (hpass : d.pass = .completing played)
    (hn : d.wordPlayTargets.length = n) (hpast : ∀ target ∈ d.wordPlayTargets, target ≤ played) :
    (Machine.run step d (List.replicate n (.render {}))).framesRendered = d.framesRendered + n := by
  induction n generalizing d with
  | zero => rfl
  | succ n ih =>
    obtain ⟨target, rest, htargets⟩ := List.exists_cons_of_length_eq_add_one hn
    rw [htargets, List.length_cons] at hn
    rw [htargets] at hpast
    have hstep : d.step (.render {}) =
        { d with wordPlayTargets := rest, framesRendered := d.framesRendered + 1 } := by
      rw [AlsaDevice.step, AlsaDevice.serviceRender, hpass, htargets]
      exact if_pos (hpast target List.mem_cons_self)
    have hleft : ∀ t ∈ rest, t ≤ played := fun t ht => hpast t (List.mem_cons_of_mem _ ht)
    have hrest := ih (d := { d with
      wordPlayTargets := rest, framesRendered := d.framesRendered + 1 }) hpass (Nat.succ.inj hn) hleft
    rw [List.replicate_succ, Machine.run_cons, hstep, hrest]
    exact Nat.add_right_comm _ _ _

/-- Between two passes the words end within what is written. -/
theorem Laid.targets_le (h : Laid d) (hidle : d.pass = .idle) :
    ∀ target ∈ d.wordPlayTargets, target ≤ d.totalWritten := by
  have hplaced := h.placed
  rw [stream, hidle, List.append_nil] at hplaced
  have hle : List.Forall₂ (fun last word => last ≤ d.totalWritten ∧ Placed d.written last word)
      d.ends (d.pulled.take d.ends.length) := by
    refine hplaced.imp fun last word hin => ⟨?_, hin⟩
    obtain ⟨before, hin, rfl⟩ := hin
    exact h.total ▸ hin.length_le
  intro target htarget
  rw [← h.waiting] at htarget
  exact ((List.forall₂_and_left _ _).mp hle).1 target (List.mem_of_mem_drop htarget)

/-- **None is missing.** Between two passes, with no word in the buffer, let the card have played
everything: a poll, a step for each word that waits, and a tick, and every word that was pulled has
had its callback. -/
theorem drained_complete (periodFrames : Nat) (ops : List DeviceOp)
    (h : Machine.AllSteps step Sound (opened periodFrames) ops)
    (hidle : (Machine.run step (opened periodFrames) ops).pass = .idle)
    (hdone : (Machine.run step (opened periodFrames) ops).atFramePending = false) :
    (Machine.run step (opened periodFrames) (ops ++ .render {} ::
      List.replicate (Machine.run step (opened periodFrames) ops).wordPlayTargets.length
        (.render {}) ++ [.tick])).fired.length =
      (Machine.run step (opened periodFrames) ops).pulled.length := by
  have hd := (kept_run h).toLaid
  rw [Machine.run_append]
  have hcounted := counted_run periodFrames (ops ++ .render {} ::
    List.replicate (Machine.run step (opened periodFrames) ops).wordPlayTargets.length (.render {}))
  refine hcounted.length_tick.trans ?_
  rw [Machine.run_append, Machine.run_cons]
  generalize Machine.run step (opened periodFrames) ops = d at hd hidle hdone
  have hpoll : d.step (.render {}) =
      { d with
        pass := .completing d.totalWritten, played := max d.played d.totalWritten } := by
    rw [AlsaDevice.step, AlsaDevice.serviceRender, hidle]
    rfl
  have hpast := hd.targets_le hidle
  rw [hpoll, completing_run (d := { d with pass := .completing d.totalWritten, played := _ }) rfl
    rfl hpast]
  have hwaiting := congrArg List.length hd.waiting
  have hended := hd.ended
  have hcount := hd.counted
  rw [List.length_drop] at hwaiting
  rw [hdone, Bool.toNat_false] at hended
  dsimp only
  omega

/-- So it is for the short word, with a poll that finds the card a frame behind in between. -/
theorem drained_complete_short :
    (Machine.run step (opened 1) (shortWordOut ++ .render {} ::
      List.replicate
        (Machine.run step (opened 1) shortWordOut).wordPlayTargets.length
        (.render {}) ++ [.tick])).fired.length =
      (Machine.run step (opened 1) shortWordOut).pulled.length :=
  drained_complete 1 shortWordOut (by decide +kernel) (by decide +kernel)
    (by decide +kernel)

end AlsaDevice

end OpenALE
