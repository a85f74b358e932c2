import PulseAgent.Go.Errors
import PulseAgent.Go.Text

/-!
# Buffered reading

`readSlice` searches the buffer before it looks at a pending error or at the room that is left, so a
line that fills the buffer exactly is still found. However the stream is cut, the line is the same.
-/

namespace Go.Bufio

def errEOF : Error := .new "EOF"
def errNoProgress : Error := .new "multiple Read calls return no data or error"
def errBufferFull : Error := .new "bufio: buffer full"

def minReadBufferSize : Nat := 16
def maxConsecutiveEmptyReads : Nat := 100

/-- The bytes still to come, and the sizes in which reads deliver them; when the sizes are used up a
read takes whatever fits. -/
structure Source where
  stream : Bytes
  sizes : List Nat

def Source.read (source : Source) (room : Nat) : Bytes × Option Error × Source :=
  if source.stream = [] then ([], some errEOF, source)
  else
    let n := min room (source.sizes.headD room)
    (source.stream.take n, none, ⟨source.stream.drop n, source.sizes.tail⟩)

/-- The unread part of the buffer stands for the two positions in it: `fill` moves it to the
front. -/
structure Reader where
  size : Nat
  buffered : Bytes
  err : Option Error
  source : Source

def newReaderSize (source : Source) (size : Nat) : Reader :=
  ⟨max size minReadBufferSize, [], none, source⟩

def fillFrom : Nat → Reader → Reader
  | 0, r => { r with err := some errNoProgress }
  | attempts + 1, r =>
    match r.source.read (r.size - r.buffered.length) with
    | (chunk, some e, source) =>
      { r with buffered := r.buffered ++ chunk, err := some e, source := source }
    | (chunk, none, source) =>
      if chunk ≠ [] then { r with buffered := r.buffered ++ chunk, source := source }
      else fillFrom attempts { r with source := source }

def Reader.fill (r : Reader) : Reader := fillFrom maxConsecutiveEmptyReads r

/-- The loop of `readSlice`. Every round adds a byte to the buffer or leaves an error. -/
def readSliceFrom (delim : UInt8) : Nat → Reader → Bytes × Option Error × Reader
  | 0, r => ([], some errNoProgress, r)
  | rounds + 1, r =>
    if delim ∈ r.buffered then
      (r.buffered.takeWhile (· != delim) ++ [delim], none,
        { r with buffered := (r.buffered.dropWhile (· != delim)).drop 1 })
    else
      match r.err with
      | some e => (r.buffered, some e, { r with buffered := [], err := none })
      | none =>
        if r.size ≤ r.buffered.length then
          (r.buffered, some errBufferFull, { r with buffered := [] })
        else readSliceFrom delim rounds r.fill

def Reader.readSlice (r : Reader) (delim : UInt8) : Bytes × Option Error × Reader :=
  readSliceFrom delim (r.size + 2) r

/-! ## Lines -/

/-- What a reader still has to deliver. -/
def Reader.pending (r : Reader) : Bytes := r.buffered ++ r.source.stream

/-- Nothing has failed, and every read that is to come delivers something. -/
structure Reader.Flows (r : Reader) : Prop where
  err : r.err = none
  fits : r.buffered.length ≤ r.size
  sizes : ∀ n ∈ r.source.sizes, 0 < n

theorem flows_newReaderSize {source : Source} (h : ∀ n ∈ source.sizes, 0 < n) (size : Nat) :
    (newReaderSize source size).Flows := ⟨rfl, Nat.zero_le _, h⟩

theorem Reader.Flows.fill {r : Reader} (h : r.Flows) (hroom : r.buffered.length < r.size)
    (hmore : r.source.stream ≠ []) :
    r.fill.Flows ∧ r.fill.pending = r.pending ∧ r.fill.size = r.size ∧
      r.buffered.length < r.fill.buffered.length := by
  let n := min (r.size - r.buffered.length) (r.source.sizes.headD (r.size - r.buffered.length))
  have hn : 0 < n := by
    have hhead : 0 < r.source.sizes.headD (r.size - r.buffered.length) := by
      cases hsizes : r.source.sizes with
      | nil => exact Nat.sub_pos_of_lt hroom
      | cons k sizes => exact h.sizes k (hsizes ▸ List.mem_cons_self)
    exact Nat.lt_min.mpr ⟨Nat.sub_pos_of_lt hroom, hhead⟩
  have hpos : 0 < (r.source.stream.take n).length := by
    rw [List.length_take]
    exact Nat.lt_min.mpr ⟨hn, List.length_pos_iff.mpr hmore⟩
  have hchunk : r.source.stream.take n ≠ [] := List.length_pos_iff.mp hpos
  have hfill : r.fill = { r with
      buffered := r.buffered ++ r.source.stream.take n
      source := ⟨r.source.stream.drop n, r.source.sizes.tail⟩ } := by
    have hread : r.source.read (r.size - r.buffered.length) =
        (r.source.stream.take n, none,
          ⟨r.source.stream.drop n, r.source.sizes.tail⟩) := if_neg hmore
    have hfirst : r.fill = fillFrom (99 + 1) r := rfl
    rw [hfirst, fillFrom, hread]
    exact if_pos hchunk
  rw [hfill]
  refine ⟨⟨h.err, ?_, fun k hk => h.sizes k (List.mem_of_mem_tail hk)⟩, ?_, rfl, ?_⟩
  · have hle : (r.source.stream.take n).length ≤ r.size - r.buffered.length :=
      (List.length_take_le n _).trans (Nat.min_le_left _ _)
    simp only [List.length_append]
    omega
  · simp [Reader.pending]
  · simp only [List.length_append]
    omega

theorem split_at_first {line : Bytes} (rest : Bytes) {delim : UInt8} (h : delim ∉ line) :
    (line ++ delim :: rest).takeWhile (· != delim) = line ∧
      (line ++ delim :: rest).dropWhile (· != delim) = delim :: rest := by
  have hline : ∀ b ∈ line, (b != delim) = true := fun b hb => by
    simp only [bne_iff_ne, ne_eq]
    rintro rfl
    exact h hb
  rw [List.takeWhile_append_of_pos hline, List.dropWhile_append_of_pos hline]
  simp

theorem Reader.Flows.readSliceFrom {line rest : Bytes} {delim : UInt8} (hline : delim ∉ line) :
    ∀ {rounds : Nat} {r : Reader}, r.Flows → r.pending = line ++ delim :: rest →
      line.length < r.size → r.size < r.buffered.length + rounds →
      ∃ r' : Reader, Bufio.readSliceFrom delim rounds r = (line ++ [delim], none, r') ∧ r'.Flows ∧
        r'.pending = rest ∧ r'.size = r.size := by
  intro rounds
  induction rounds with
  | zero =>
    intro r h _ _ hrounds
    exact absurd h.fits (by omega)
  | succ rounds ih =>
    intro r h hpending hsize hrounds
    rw [Bufio.readSliceFrom]
    by_cases hfound : delim ∈ r.buffered
    · -- the separator is in the buffer, and so is the whole line
      obtain ⟨first, tail, hbuffered, hfirst⟩ := List.eq_append_cons_of_mem hfound
      have hsplit := hpending
      rw [Reader.pending, hbuffered, List.append_assoc, List.cons_append] at hsplit
      obtain ⟨htake, hdrop⟩ := split_at_first (tail ++ r.source.stream) hfirst
      obtain ⟨htake', hdrop'⟩ := split_at_first rest hline
      rw [hsplit] at htake hdrop
      obtain rfl : line = first := htake'.symm.trans htake
      have hrest : rest = tail ++ r.source.stream := (List.cons.inj (hdrop'.symm.trans hdrop)).2
      obtain ⟨hhead, htail⟩ := split_at_first tail hfirst
      rw [if_pos hfound, hbuffered, hhead, htail]
      refine ⟨_, rfl, ⟨h.err, ?_, h.sizes⟩, hrest.symm, rfl⟩
      have hfits := h.fits
      rw [hbuffered, List.length_append, List.length_cons] at hfits
      exact Nat.le_trans (Nat.le_trans (Nat.le_succ _) (Nat.le_add_left _ _)) hfits
    · rw [if_neg hfound, h.err]
      have hmore : r.source.stream ≠ [] := by
        intro hempty
        rw [Reader.pending, hempty, List.append_nil] at hpending
        exact hfound (hpending ▸ List.mem_append_right _ List.mem_cons_self)
      have hroom : r.buffered.length ≤ line.length := by
        by_contra hlong
        have hget : (r.buffered ++ r.source.stream)[line.length]? = some delim := by
          rw [← Reader.pending, hpending]
          simp
        rw [List.getElem?_append_left (by omega)] at hget
        exact hfound (List.mem_of_getElem? hget)
      obtain ⟨hflows, hpending', hsize', hgrows⟩ := h.fill (by omega) hmore
      rw [if_neg (by omega)]
      obtain ⟨r', hslice, hrest⟩ := ih hflows (hpending'.trans hpending) (by omega) (by omega)
      exact ⟨r', hslice, hrest.1, hrest.2.1, hrest.2.2.trans hsize'⟩

theorem Reader.Flows.readSlice {line rest : Bytes} {delim : UInt8}
    (hline : delim ∉ line) {r : Reader}
    (h : r.Flows) (hpending : r.pending = line ++ delim :: rest) (hsize : line.length < r.size) :
    ∃ r' : Reader, r.readSlice delim = (line ++ [delim], none, r') ∧ r'.Flows ∧ r'.pending = rest ∧
      r'.size = r.size :=
  readSliceFrom hline h hpending hsize (by omega)

end Go.Bufio
