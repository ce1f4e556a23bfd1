import LabRuntime.Lib.Checks
import LabRuntime.Lib.JsonText
import Mathlib.Tactic.Common

/-! The frame limits that are checked over the bytes of a message, before anything is parsed:
a one-pass scan that counts containers and values. It is read against the grammar through the
same scan without limits, which follows a document part by part. -/

namespace LabRuntime.Wire

open JsonText

def DEPTH_LIMIT : ℕ := 16

def VALUE_LIMIT : ℕ := 1024

structure WireError where
  code : String
  message : String
deriving DecidableEq, Repr

/-- The scan's state; `containers` has the innermost open bracket first, with whether an array's
first element was seen. -/
structure Scan where
  inString : Bool
  escape : Bool
  depth : ℕ
  values : ℕ
  containers : List (UInt8 × Bool)
deriving DecidableEq, Repr

def Scan.start : Scan := ⟨false, false, 0, 1, []⟩

def isAsciiWhitespace (b : UInt8) : Bool := b ∈ [0x20, 0x09, 0x0a, 0x0c, 0x0d]

/-- The first byte of an array's first element is remembered at its bracket. -/
def Scan.seeFirst (s : Scan) (b : UInt8) : Scan :=
  match s.containers with
  | (kind, firstSeen) :: outer =>
    if kind = byte '[' ∧ firstSeen = false ∧ isAsciiWhitespace b = false ∧ b ≠ byte ']' then
      { s with containers := (kind, true) :: outer }
    else s
  | [] => s

def Scan.quoted (s : Scan) (b : UInt8) : Scan :=
  if s.escape then { s with escape := false }
  else if b = byte '\\' then { s with escape := true }
  else if b = byte '"' then { s with inString := false }
  else s

def Scan.pushed (s : Scan) (b : UInt8) : Scan :=
  { s with depth := s.depth + 1, containers := (b, false) :: s.containers }

def Scan.popped (s : Scan) : Scan :=
  { s with
    values := if s.containers.head? = some (byte '[', true) then s.values + 1 else s.values
    containers := s.containers.tail
    depth := s.depth - 1 }

def Scan.counted (s : Scan) : Scan := { s with values := s.values + 1 }

def lexicalStep (s : Scan) (b : UInt8) : Except WireError Scan :=
  if s.inString then .ok (s.quoted b)
  else do
    let s := s.seeFirst b
    let s ←
      if b = byte '"' then .ok { s with inString := true }
      else if b = byte '\x7b' ∨ b = byte '[' then
        if DEPTH_LIMIT < s.depth + 1 then .error ⟨"json_depth", "JSON depth exceeds 16"⟩ else .ok (s.pushed b)
      else if b = byte '\x7d' ∨ b = byte ']' then .ok s.popped
      else if b = byte ':' then .ok s.counted
      else if b = byte ',' ∧ s.containers.head?.any (fun top => top.1 = byte '[') then .ok s.counted
      else .ok s
    if VALUE_LIMIT < s.values then .error ⟨"json_values", "JSON value limit"⟩ else .ok s

def lexicalLimits (body : List UInt8) : Except WireError Unit := do
  let _ ← body.foldlM lexicalStep Scan.start
  .ok ()

section Unbounded

/-- One byte of the scan, without its limits. -/
def advance (s : Scan) (b : UInt8) : Scan :=
  if s.inString then s.quoted b
  else
    let s := s.seeFirst b
    if b = byte '"' then { s with inString := true }
    else if b = byte '\x7b' ∨ b = byte '[' then s.pushed b
    else if b = byte '\x7d' ∨ b = byte ']' then s.popped
    else if b = byte ':' then s.counted
    else if b = byte ',' ∧ s.containers.head?.any (fun top => top.1 = byte '[') then s.counted
    else s

def feed (s : Scan) (bs : List UInt8) : Scan := bs.foldl advance s

/-- The greatest depth on the way. -/
def peak : Scan → List UInt8 → ℕ
  | s, [] => s.depth
  | s, b :: bs => max s.depth (peak (advance s b) bs)

variable {s : Scan} {b : UInt8}

@[simp] theorem seeFirst_depth : (s.seeFirst b).depth = s.depth := by
  unfold Scan.seeFirst
  split
  · split_ifs <;> rfl
  · rfl

@[simp] theorem seeFirst_values : (s.seeFirst b).values = s.values := by
  unfold Scan.seeFirst
  split
  · split_ifs <;> rfl
  · rfl

@[simp] theorem quoted_depth : (s.quoted b).depth = s.depth := by
  unfold Scan.quoted
  split_ifs <;> rfl

@[simp] theorem quoted_values : (s.quoted b).values = s.values := by
  unfold Scan.quoted
  split_ifs <;> rfl

theorem values_popped : s.values ≤ s.popped.values := by
  unfold Scan.popped
  dsimp only
  split_ifs
  · exact Nat.le_succ _
  · exact le_rfl

theorem values_advance : s.values ≤ (advance s b).values := by
  unfold advance
  dsimp only
  split_ifs with hstring hquote hopen hclose hcolon hcomma
  · simp
  · simp
  · simp [Scan.pushed]
  · exact (by simp : s.values ≤ (s.seeFirst b).values).trans values_popped
  · simp [Scan.counted]
  · simp [Scan.counted]
  · simp

theorem values_feed (s : Scan) (bs : List UInt8) : s.values ≤ (feed s bs).values := by
  induction bs generalizing s with
  | nil => exact le_rfl
  | cons b bs ih => exact values_advance.trans (ih _)

theorem depth_le_peak (s : Scan) (bs : List UInt8) : s.depth ≤ peak s bs := by
  cases bs with
  | nil => exact le_rfl
  | cons b bs => exact le_max_left _ _

/-- Within the limits, a step of the scan fails exactly when the byte leads over a limit. -/
theorem lexicalStep_eq (hdepth : s.depth ≤ DEPTH_LIMIT) (hvalues : s.values ≤ VALUE_LIMIT) :
    lexicalStep s b =
      if DEPTH_LIMIT < (advance s b).depth then .error ⟨"json_depth", "JSON depth exceeds 16"⟩
      else if VALUE_LIMIT < (advance s b).values then .error ⟨"json_values", "JSON value limit"⟩
      else .ok (advance s b) := by
  have hd : (s.seeFirst b).depth ≤ DEPTH_LIMIT := seeFirst_depth.trans_le hdepth
  have hv : (s.seeFirst b).values ≤ VALUE_LIMIT := seeFirst_values.trans_le hvalues
  unfold lexicalStep advance
  by_cases hstring : s.inString = true
  · rw [if_pos hstring, if_pos hstring, quoted_depth, quoted_values, if_neg (by omega), if_neg (by omega)]
  rw [if_neg hstring, if_neg hstring]
  dsimp only
  generalize s.seeFirst b = t at hd hv ⊢
  by_cases hquote : b = byte '"'
  · rw [if_pos hquote, if_pos hquote, if_neg (by dsimp only; omega)]
    rfl
  rw [if_neg hquote, if_neg hquote]
  by_cases hopen : b = byte '\x7b' ∨ b = byte '['
  · rw [if_pos hopen, if_pos hopen]
    by_cases hdeep : DEPTH_LIMIT < t.depth + 1
    · rw [if_pos hdeep, if_pos (show DEPTH_LIMIT < (t.pushed b).depth from hdeep)]
      rfl
    · rw [if_neg hdeep, if_neg (show ¬ DEPTH_LIMIT < (t.pushed b).depth from hdeep)]
      rfl
  -- no other byte leads deeper
  have shallow : ∀ u : Scan, u.depth ≤ t.depth →
      ((Except.ok u : Except WireError Scan) >>= fun s =>
        if VALUE_LIMIT < s.values then .error ⟨"json_values", "JSON value limit"⟩ else .ok s) =
      if DEPTH_LIMIT < u.depth then .error ⟨"json_depth", "JSON depth exceeds 16"⟩
      else if VALUE_LIMIT < u.values then .error ⟨"json_values", "JSON value limit"⟩ else .ok u := fun u hu => by
    rw [if_neg (by omega)]
    rfl
  rw [if_neg hopen, if_neg hopen]
  by_cases hclose : b = byte '\x7d' ∨ b = byte ']'
  · rw [if_pos hclose, if_pos hclose]
    exact shallow t.popped (Nat.sub_le _ _)
  rw [if_neg hclose, if_neg hclose]
  by_cases hcolon : b = byte ':'
  · rw [if_pos hcolon, if_pos hcolon]
    exact shallow t.counted le_rfl
  rw [if_neg hcolon, if_neg hcolon]
  by_cases hcomma : b = byte ',' ∧ t.containers.head?.any (fun top => top.1 = byte '[')
  · rw [if_pos hcomma, if_pos hcomma]
    exact shallow t.counted le_rfl
  · rw [if_neg hcomma, if_neg hcomma]
    exact shallow t le_rfl

/-- A scan that starts within the limits ends within them exactly when it never goes too deep
and counts few enough values in all. -/
theorem foldlM_lexicalStep (bs : List UInt8) : ∀ s : Scan, s.depth ≤ DEPTH_LIMIT → s.values ≤ VALUE_LIMIT →
    ((∃ s', bs.foldlM lexicalStep s = .ok s') ↔ peak s bs ≤ DEPTH_LIMIT ∧ (feed s bs).values ≤ VALUE_LIMIT) := by
  induction bs with
  | nil => exact fun s hdepth hvalues => ⟨fun _ => ⟨hdepth, hvalues⟩, fun _ => ⟨s, rfl⟩⟩
  | cons b bs ih =>
    intro s hdepth hvalues
    have hpeak : peak s (b :: bs) = max s.depth (peak (advance s b) bs) := rfl
    have hfeed : feed s (b :: bs) = feed (advance s b) bs := rfl
    rw [List.foldlM_cons, lexicalStep_eq hdepth hvalues, hpeak, hfeed]
    have hd := depth_le_peak (advance s b) bs
    have hv := values_feed (advance s b) bs
    by_cases hdeep : DEPTH_LIMIT < (advance s b).depth
    · rw [if_pos hdeep]
      constructor
      · rintro ⟨_, h⟩
        cases h
      · intro h
        omega
    by_cases hmany : VALUE_LIMIT < (advance s b).values
    · rw [if_neg hdeep, if_pos hmany]
      constructor
      · rintro ⟨_, h⟩
        cases h
      · intro h
        omega
    rw [if_neg hdeep, if_neg hmany, Checks.ok_bind, ih _ (by omega) (by omega)]
    omega

theorem lexicalLimits_iff (body : List UInt8) :
    lexicalLimits body = .ok () ↔
      peak Scan.start body ≤ DEPTH_LIMIT ∧ (feed Scan.start body).values ≤ VALUE_LIMIT := by
  rw [← foldlM_lexicalStep body Scan.start (by decide) (by decide)]
  unfold lexicalLimits
  constructor
  · intro h
    obtain ⟨s', hs', -⟩ := Checks.bind_ok.1 h
    exact ⟨s', hs'⟩
  · rintro ⟨s', hs'⟩
    rw [hs']
    rfl

end Unbounded

section Document

/-- Outside a string. -/
def Scan.Outside (s : Scan) : Prop := s.inString = false ∧ s.escape = false

/-- A value has begun: if the innermost container is an array, it has an element. -/
def Scan.begun (s : Scan) : Scan :=
  match s.containers with
  | (kind, firstSeen) :: outer => { s with containers := (kind, firstSeen || kind = byte '[') :: outer }
  | [] => s

/-- The stretch leads from `s` to `s'` at the same depth, at most `n` deeper on the way. -/
def Scans (s : Scan) (bs : List UInt8) (s' : Scan) (n : ℕ) : Prop :=
  feed s bs = s' ∧ peak s bs = s.depth + n ∧ s'.depth = s.depth

variable {s s' s'' : Scan} {b : UInt8} {bs bs' : List UInt8} {n m : ℕ}

theorem peak_append (s : Scan) (bs bs' : List UInt8) :
    peak s (bs ++ bs') = max (peak s bs) (peak (feed s bs) bs') := by
  induction bs generalizing s with
  | nil => exact (max_eq_right (depth_le_peak s bs')).symm
  | cons b bs ih =>
    show max s.depth (peak (advance s b) (bs ++ bs')) = max (max s.depth _) _
    rw [ih, max_assoc]
    rfl

theorem feed_append (s : Scan) (bs bs' : List UInt8) : feed s (bs ++ bs') = feed (feed s bs) bs' :=
  List.foldl_append

theorem Scans.nil : Scans s [] s 0 := ⟨rfl, rfl, rfl⟩

theorem Scans.append (h : Scans s bs s' n) (h' : Scans s' bs' s'' m) : Scans s (bs ++ bs') s'' (max n m) := by
  obtain ⟨hfeed, hpeak, hdepth⟩ := h
  obtain ⟨hfeed', hpeak', hdepth'⟩ := h'
  refine ⟨by rw [feed_append, hfeed, hfeed'], ?_, hdepth'.trans hdepth⟩
  rw [peak_append, hfeed, hpeak, hpeak']
  omega

theorem Scans.one (h : advance s b = s') (hdepth : s'.depth = s.depth) : Scans s [b] s' 0 :=
  ⟨h, by rw [peak, peak, h]; omega, hdepth⟩

/-- The bytes of a container lie one level deeper than its brackets. -/
theorem Scans.enclosed {o c : UInt8} {i i' : Scan} (hopen : advance s o = i) (hi : i.depth = s.depth + 1)
    (h : Scans i bs i' n) (hclose : advance i' c = s') (hs' : s'.depth = s.depth) :
    Scans s (o :: (bs ++ [c])) s' (n + 1) := by
  obtain ⟨hfeed, hpeak, hdepth⟩ := h
  refine ⟨?_, ?_, hs'⟩
  · show feed (advance s o) (bs ++ [c]) = s'
    rw [hopen, feed_append, hfeed]
    exact hclose
  · show max s.depth (peak (advance s o) (bs ++ [c])) = s.depth + (n + 1)
    rw [hopen, peak_append, hfeed, hpeak, peak, peak, hclose]
    omega

/-- So many more values are counted. -/
def Scan.plus (s : Scan) (n : ℕ) : Scan := { s with values := s.values + n }

@[simp] theorem plus_zero : s.plus 0 = s := rfl
theorem plus_plus : (s.plus n).plus m = s.plus (n + m) := by simp [Scan.plus, Nat.add_assoc]
@[simp] theorem plus_depth : (s.plus n).depth = s.depth := rfl
@[simp] theorem plus_containers : (s.plus n).containers = s.containers := rfl
theorem Scan.Outside.plus (h : s.Outside) : (s.plus n).Outside := h

theorem begun_plus : (s.plus n).begun = s.begun.plus n := by
  unfold Scan.begun Scan.plus
  dsimp only
  split <;> rfl

@[simp] theorem begun_depth : s.begun.depth = s.depth := by
  unfold Scan.begun
  split <;> rfl

@[simp] theorem begun_values : s.begun.values = s.values := by
  unfold Scan.begun
  split <;> rfl

theorem begun_begun : s.begun.begun = s.begun := by
  obtain ⟨inString, escape, depth, values, containers⟩ := s
  rcases containers with _ | ⟨⟨kind, seen⟩, outer⟩
  · rfl
  · simp [Scan.begun]

theorem Scan.Outside.begun (h : s.Outside) : s.begun.Outside := by
  unfold Scan.begun
  split <;> exact h

theorem begun_of_array {seen : Bool} {outer : List (UInt8 × Bool)} (h : s.containers = (byte '[', seen) :: outer) :
    s.begun = { s with containers := (byte '[', true) :: outer } := by
  unfold Scan.begun
  rw [h]
  simp

theorem begun_of_object {seen : Bool} {outer : List (UInt8 × Bool)} (h : s.containers = (byte '\x7b', seen) :: outer) :
    s.begun = s := by
  unfold Scan.begun
  rw [h]
  obtain ⟨inString, escape, depth, values, containers⟩ := s
  obtain rfl : containers = _ := h
  have hne : decide (byte '\x7b' = byte '[') = false := by decide
  simp [hne]

theorem seeFirst_value (hblank : isAsciiWhitespace b = false) (hclose : b ≠ byte ']') : s.seeFirst b = s.begun := by
  obtain ⟨inString, escape, depth, values, containers⟩ := s
  rcases containers with _ | ⟨⟨kind, seen⟩, outer⟩
  · rfl
  · unfold Scan.seeFirst Scan.begun
    by_cases hkind : kind = byte '['
    · cases seen <;> simp [hkind, hblank, hclose]
    · simp [hkind]

theorem seeFirst_other (h : isAsciiWhitespace b = true ∨ b = byte ']') : s.seeFirst b = s := by
  unfold Scan.seeFirst
  split
  · rw [if_neg]
    rintro ⟨-, -, hblank, hclose⟩
    rcases h with h | h
    · rw [h] at hblank
      cases hblank
    · exact hclose h
  · rfl

/-- A byte that is no blank, no quote, no bracket and no separator. -/
def Plain (b : UInt8) : Prop :=
  isAsciiWhitespace b = false ∧
    b ∉ [byte '"', byte '\x7b', byte '[', byte '\x7d', byte ']', byte ':', byte ',']

instance : DecidablePred Plain := fun _ => inferInstanceAs (Decidable (_ ∧ _))

theorem advance_plain (hs : s.Outside) (hb : Plain b) : advance s b = s.begun := by
  obtain ⟨hblank, hb⟩ := hb
  simp only [List.mem_cons, List.not_mem_nil, or_false, not_or] at hb
  obtain ⟨hquote, hbrace, hbracket, hbrace', hbracket', hcolon, hcomma⟩ := hb
  unfold advance
  rw [if_neg (by simp [hs.1])]
  dsimp only
  rw [seeFirst_value hblank hbracket', if_neg hquote, if_neg (by simp [hbrace, hbracket]),
    if_neg (by simp [hbrace', hbracket']), if_neg hcolon, if_neg (by simp [hcomma])]

theorem scans_plain (hs : s.Outside) (h : ∀ x ∈ b :: bs, Plain x) : Scans s (b :: bs) s.begun 0 := by
  induction bs generalizing s b with
  | nil => exact Scans.one (advance_plain hs (h b (by simp))) begun_depth
  | cons c bs ih =>
    have first := Scans.one (advance_plain hs (h b (by simp))) begun_depth
    have rest := ih hs.begun fun x hx => h x (List.mem_cons_of_mem b hx)
    rw [begun_begun] at rest
    exact first.append rest

theorem advance_blank (hs : s.Outside) (hb : b = 0x20 ∨ b = 0x09 ∨ b = 0x0a ∨ b = 0x0d) : advance s b = s := by
  unfold advance
  rw [if_neg (by simp [hs.1])]
  dsimp only
  rcases hb with rfl | rfl | rfl | rfl
  all_goals
    rw [seeFirst_other (.inl (by decide)), if_neg (by decide), if_neg (by decide), if_neg (by decide),
      if_neg (by decide), if_neg (fun h => absurd h.1 (by decide))]

theorem scans_blank (hs : s.Outside) (h : Blank bs) : Scans s bs s 0 := by
  induction bs with
  | nil => exact Scans.nil
  | cons b bs ih =>
    have first := Scans.one (advance_blank hs (h b (by simp))) rfl
    exact first.append (ih fun x hx => h x (List.mem_cons_of_mem b hx))

theorem advance_quote (hs : s.Outside) : advance s (byte '"') = { s.begun with inString := true } := by
  unfold advance
  rw [if_neg (by simp [hs.1])]
  dsimp only
  rw [seeFirst_value (by decide) (by decide), if_pos rfl]

theorem advance_open (hs : s.Outside) (hb : b = byte '\x7b' ∨ b = byte '[') : advance s b = s.begun.pushed b := by
  unfold advance
  rw [if_neg (by simp [hs.1])]
  dsimp only
  have hvalue : isAsciiWhitespace b = false ∧ b ≠ byte ']' ∧ b ≠ byte '"' := by
    rcases hb with rfl | rfl <;> decide
  rw [seeFirst_value hvalue.1 hvalue.2.1, if_neg hvalue.2.2, if_pos hb]

/-- A closing bracket counts its array's first element, if it had one. -/
theorem advance_closeArray (hs : s.Outside) {seen : Bool} {outer : List (UInt8 × Bool)}
    (h : s.containers = (byte '[', seen) :: outer) :
    advance s (byte ']') =
      { s with values := s.values + (if seen then 1 else 0), containers := outer, depth := s.depth - 1 } := by
  unfold advance
  rw [if_neg (by simp [hs.1])]
  dsimp only
  rw [seeFirst_other (.inr rfl), if_neg (by decide), if_neg (by decide), if_pos (.inr rfl)]
  unfold Scan.popped
  rw [h]
  cases seen <;> rfl

theorem advance_closeObject (hs : s.Outside) {seen : Bool} {outer : List (UInt8 × Bool)}
    (h : s.containers = (byte '\x7b', seen) :: outer) :
    advance s (byte '\x7d') = { s with containers := outer, depth := s.depth - 1 } := by
  unfold advance
  rw [if_neg (by simp [hs.1])]
  dsimp only
  rw [seeFirst_value (by decide) (by decide), begun_of_object h, if_neg (by decide), if_neg (by decide),
    if_pos (.inl rfl)]
  unfold Scan.popped
  rw [h]
  rfl

theorem advance_colon (hs : s.Outside) {seen : Bool} {outer : List (UInt8 × Bool)}
    (h : s.containers = (byte '\x7b', seen) :: outer) : advance s (byte ':') = s.plus 1 := by
  unfold advance
  rw [if_neg (by simp [hs.1])]
  dsimp only
  rw [seeFirst_value (by decide) (by decide), begun_of_object h, if_neg (by decide), if_neg (by decide),
    if_neg (by decide), if_pos rfl]
  rfl

theorem advance_commaArray (hs : s.Outside) {outer : List (UInt8 × Bool)}
    (h : s.containers = (byte '[', true) :: outer) : advance s (byte ',') = s.plus 1 := by
  unfold advance
  rw [if_neg (by simp [hs.1])]
  dsimp only
  have hbegun : s.begun = s := by
    rw [begun_of_array h]
    rw [← h]
  rw [seeFirst_value (by decide) (by decide), hbegun, if_neg (by decide), if_neg (by decide), if_neg (by decide),
    if_neg (by decide), if_pos ⟨rfl, by simp [h]⟩]
  rfl

theorem advance_commaObject (hs : s.Outside) {seen : Bool} {outer : List (UInt8 × Bool)}
    (h : s.containers = (byte '\x7b', seen) :: outer) : advance s (byte ',') = s := by
  unfold advance
  rw [if_neg (by simp [hs.1])]
  dsimp only
  rw [seeFirst_value (by decide) (by decide), begun_of_object h, if_neg (by decide), if_neg (by decide),
    if_neg (by decide), if_neg (by decide), if_neg fun hc => ?_]
  have hkind : byte '\x7b' = byte '[' := by simpa [h] using hc.2
  exact absurd hkind (by decide)

/-- Within a string the scan goes from an escape to what it escapes, and is not led out by it. -/
theorem scans_chars (h : Chars bs) (hin : s.inString = true) (hescape : s.escape = false) : Scans s bs s 0 := by
  have quoted (u : Scan) (c : UInt8) (hu : u.inString = true) : advance u c = u.quoted c := if_pos hu
  have plain (c : UInt8) (hquote : c ≠ byte '"') (hc : c ≠ byte '\\') : Scans s [c] s 0 := by
    refine Scans.one ?_ rfl
    rw [quoted s c hin, Scan.quoted, if_neg (by simp [hescape]), if_neg hc, if_neg hquote]
  have escaped (c : UInt8) : Scans s [byte '\\', c] s 0 := by
    have first : Scans s [byte '\\'] { s with escape := true } 0 := by
      refine Scans.one ?_ rfl
      rw [quoted s _ hin, Scan.quoted, if_neg (by simp [hescape]), if_pos rfl]
    have second : Scans { s with escape := true } [c] s 0 := by
      refine Scans.one ?_ rfl
      rw [quoted { s with escape := true } c hin, Scan.quoted, if_pos rfl, ← hescape]
    exact first.append second
  induction h with
  | nil => exact Scans.nil
  | plain _ hquote hc _ ih => exact (plain _ hquote hc).append ih
  | escaped _ _ ih => exact (escaped _).append ih
  | code hex _ ih =>
    have digit (c : UInt8) (hc : IsHex c) : Scans s [c] s 0 := by
      refine plain c ?_ ?_
      · rintro rfl
        exact absurd hc (by decide)
      · rintro rfl
        exact absurd hc (by decide)
    obtain ⟨h₁, h₂, h₃, h₄⟩ := hex
    exact (escaped _).append ((digit _ h₁).append ((digit _ h₂).append ((digit _ h₃).append
      ((digit _ h₄).append ih))))

theorem scans_string (hs : s.Outside) (h : Chars bs) : Scans s (byte '"' :: (bs ++ [byte '"'])) s.begun 0 := by
  have opened := Scans.one (advance_quote hs) begun_depth
  have inside := scans_chars h (s := { s.begun with inString := true }) rfl hs.begun.2
  have closed : Scans { s.begun with inString := true } [byte '"'] s.begun 0 := by
    refine Scans.one ?_ rfl
    have hnot : ¬ s.begun.escape = true := by simp [hs.begun.2]
    rw [advance, if_pos rfl, Scan.quoted, if_neg hnot, if_neg (by decide), if_pos rfl, ← hs.begun.1]
  exact opened.append (inside.append closed)

theorem plain_digit (hb : IsDigit b) : Plain b := by
  by_contra hplain
  simp only [Plain, isAsciiWhitespace, List.mem_cons, List.not_mem_nil, or_false, not_and_or, decide_eq_false_iff_not,
    not_not] at hplain
  rcases hplain with h | h
  · rcases h with rfl | rfl | rfl | rfl | rfl <;> revert hb <;> decide
  · rcases h with rfl | rfl | rfl | rfl | rfl | rfl | rfl <;> revert hb <;> decide

theorem plain_numeral (h : Numeral bs) : bs ≠ [] ∧ ∀ x ∈ bs, Plain x := by
  obtain ⟨sign, whole, fraction, exponent, hsign, ⟨⟨hne, hwhole⟩, -⟩, hfraction, hexponent, rfl⟩ := h
  refine ⟨by simp [hne], fun x hx => ?_⟩
  simp only [List.mem_append] at hx
  rcases hx with ((hx | hx) | hx) | hx
  · have hminus : ∀ sign ∈ [[], [byte '-']], ∀ x ∈ sign, Plain x := by decide +kernel
    exact hminus sign hsign x hx
  · exact plain_digit (hwhole x hx)
  · rcases hfraction with rfl | ⟨ds, hds, rfl⟩
    · cases hx
    · rcases List.mem_cons.1 hx with rfl | hx
      · decide
      · exact plain_digit (hds.2 x hx)
  · rcases hexponent with rfl | ⟨e, sign, ds, he, hsign, hds, rfl⟩
    · cases hx
    · rcases List.mem_cons.1 hx with rfl | hx
      · have hletter : ∀ e ∈ [byte 'e', byte 'E'], Plain e := by decide +kernel
        exact hletter _ he
      · rcases List.mem_append.1 hx with hx | hx
        · have hsigns : ∀ sign ∈ [[], [byte '+'], [byte '-']], ∀ x ∈ sign, Plain x := by decide +kernel
          exact hsigns sign hsign x hx
        · exact plain_digit (hds.2 x hx)

/-- What the scan does over the text of a part: it counts the values in it and goes as deep as
its containers are nested. -/
def Follows (bs : List UInt8) : Part → Prop
  | .value v => ∀ s : Scan, s.Outside → Scans s bs (s.begun.plus v.inner) v.nesting
  | .elements vs => ∀ (s : Scan) (seen : Bool) (outer : List (UInt8 × Bool)), s.Outside →
      s.containers = (byte '[', seen) :: outer →
      Scans s bs (s.begun.plus (vs.length - 1 + Value.innerItems vs)) (Value.nestingItems vs)
  | .members ms => ∀ (s : Scan) (seen : Bool) (outer : List (UInt8 × Bool)), s.Outside →
      s.containers = (byte '\x7b', seen) :: outer →
      Scans s bs (s.plus (ms.length + Value.innerMembers ms)) (Value.nestingMembers ms)

theorem Scans.cast (h : Scans s bs s' n) (hs : s' = s'') (hn : n = m) : Scans s bs s'' m := hs ▸ hn ▸ h

theorem follows_plain {v : Document} (hne : bs ≠ []) (h : ∀ x ∈ bs, Plain x) (hinner : v.inner = 0)
    (hnesting : v.nesting = 0) : Follows bs (.value v) := by
  intro s hs
  obtain ⟨b, rest, rfl⟩ := List.exists_cons_of_ne_nil hne
  rw [hinner, hnesting]
  exact scans_plain hs h

/-- One array element with its blanks. -/
theorem scans_element {w₁ w₂ : List UInt8} {v : Document} (hs : s.Outside)
    (hbefore : Blank w₁) (h : Follows bs (.value v)) (hafter : Blank w₂) :
    Scans s (w₁ ++ bs ++ w₂) (s.begun.plus v.inner) v.nesting := by
  have value := h s hs
  refine (((scans_blank hs hbefore).append value).append (scans_blank hs.begun.plus hafter)).cast rfl ?_
  omega

/-- One object member: its colon counts the value. -/
theorem scans_member {w₁ key w₂ w₃ w₄ : List UInt8} {v : Document} {seen : Bool} {outer : List (UInt8 × Bool)}
    (hs : s.Outside) (hobject : s.containers = (byte '\x7b', seen) :: outer) (hbefore : Blank w₁) (hkey : Chars key)
    (hbetween : Blank w₂ ∧ Blank w₃) (h : Follows bs (.value v)) (hafter : Blank w₄) :
    Scans s (w₁ ++ byte '"' :: (key ++ [byte '"']) ++ w₂ ++ byte ':' :: w₃ ++ bs ++ w₄) (s.plus (1 + v.inner))
      v.nesting := by
  have hbegun : s.begun = s := begun_of_object hobject
  have name := scans_string hs hkey
  rw [hbegun] at name
  have colon := Scans.one (advance_colon hs hobject) plus_depth
  have value := h (s.plus 1) hs.plus
  rw [begun_plus, hbegun, plus_plus] at value
  have prefixed := (((scans_blank hs hbefore).append name).append (scans_blank hs hbetween.1)).append
    (colon.append (scans_blank hs.plus hbetween.2))
  have whole := (prefixed.append value).append (scans_blank hs.plus hafter)
  simp only [List.append_assoc, List.cons_append, List.nil_append] at whole ⊢
  exact whole.cast rfl (by omega)

theorem Spells.elements_ne {vs : List Document} (h : Spells bs (.elements vs)) : vs ≠ [] := by
  cases h <;> exact List.cons_ne_nil _ _

/-- A container, its bytes scanned from the state its bracket opens. -/
theorem scans_array {k : ℕ} (hs : s.Outside)
    (h : Scans (s.begun.pushed (byte '[')) bs ((s.begun.pushed (byte '[')).begun.plus k) n) :
    Scans s (byte '[' :: (bs ++ [byte ']'])) (s.begun.plus (k + 1)) (n + 1) := by
  refine Scans.enclosed (advance_open hs (.inr rfl)) (congrArg (· + 1) begun_depth) h ?_ begun_depth
  have hbegun := @begun_of_array (s.begun.pushed (byte '[')) false s.begun.containers rfl
  have hout : (s.begun.pushed (byte '[')).begun.Outside := by
    rw [hbegun]
    exact hs.begun
  rw [@advance_closeArray _ hout.plus true s.begun.containers (by rw [plus_containers, hbegun]), hbegun]
  rfl

theorem scans_emptyArray (hs : s.Outside) (h : Blank bs) :
    Scans s (byte '[' :: (bs ++ [byte ']'])) s.begun 1 := by
  have hout : (s.begun.pushed (byte '[')).Outside := hs.begun
  refine Scans.enclosed (advance_open hs (.inr rfl)) (congrArg (· + 1) begun_depth) (scans_blank hout h) ?_
    begun_depth
  rw [@advance_closeArray _ hout false s.begun.containers rfl]
  rfl

theorem scans_object {k : ℕ} (hs : s.Outside)
    (h : Scans (s.begun.pushed (byte '\x7b')) bs ((s.begun.pushed (byte '\x7b')).plus k) n) :
    Scans s (byte '\x7b' :: (bs ++ [byte '\x7d'])) (s.begun.plus k) (n + 1) := by
  have hout : (s.begun.pushed (byte '\x7b')).Outside := hs.begun
  refine Scans.enclosed (advance_open hs (.inl rfl)) (congrArg (· + 1) begun_depth) h ?_ begun_depth
  rw [@advance_closeObject _ hout.plus false s.begun.containers rfl]
  rfl

/-- The scan follows the grammar: one case for each way a text spells a part. -/
theorem follows {p : Part} (h : Spells bs p) : Follows bs p := by
  induction h with
  | null => exact follows_plain (by decide +kernel) (by decide +kernel) rfl rfl
  | false => exact follows_plain (by decide +kernel) (by decide +kernel) rfl rfl
  | true => exact follows_plain (by decide +kernel) (by decide +kernel) rfl rfl
  | number h => exact follows_plain (plain_numeral h).1 (plain_numeral h).2 rfl rfl
  | string h => exact fun s hs => scans_string hs h
  | emptyArray blank => exact fun s hs => scans_emptyArray hs blank
  | @array text vs h ih =>
    intro s hs
    have hlength := List.length_pos_iff.2 (Spells.elements_ne h)
    have inside := ih (s.begun.pushed (byte '[')) false s.begun.containers hs.begun rfl
    have whole := scans_array hs inside
    have hinner : vs.length - 1 + Value.innerItems vs + 1 = (Value.array vs).inner := by
      rw [Value.inner]
      omega
    rw [hinner] at whole
    exact whole
  | emptyObject blank =>
    intro s hs
    have hout : (s.begun.pushed (byte '\x7b')).Outside := hs.begun
    exact scans_object (k := 0) hs (scans_blank hout blank)
  | @object text ms _ ih =>
    intro s hs
    have inside := ih (s.begun.pushed (byte '\x7b')) false s.begun.containers hs.begun rfl
    exact scans_object hs inside
  | element before _ after ih =>
    intro s seen outer hs harray
    have one := scans_element hs before ih after
    refine one.cast ?_ ?_
    · simp [Value.innerItems]
    · simp [Value.nestingItems]
  | @elements w₁ text w₂ v more vs before _ after hmore ih ihmore =>
    intro s seen outer hs harray
    have one := scans_element hs before ih after
    have hbegun := begun_of_array harray
    have hcontainers : (s.begun.plus v.inner).containers = (byte '[', true) :: outer := by
      rw [plus_containers, hbegun]
    have comma := Scans.one (advance_commaArray hs.begun.plus hcontainers) plus_depth
    have rest := ihmore ((s.begun.plus v.inner).plus 1) true outer hs.begun.plus.plus hcontainers
    have hlength := List.length_pos_iff.2 (Spells.elements_ne hmore)
    rw [begun_plus, begun_plus, begun_begun, plus_plus, plus_plus] at rest
    rw [plus_plus] at comma
    have whole := one.append (comma.append rest)
    refine whole.cast (congrArg s.begun.plus ?_) ?_
    · rw [Value.innerItems, List.length_cons]
      omega
    · rw [Value.nestingItems]
      omega
  | member before hkey between _ after ih =>
    intro s seen outer hs hobject
    have one := scans_member hs hobject before hkey between ih after
    refine one.cast ?_ ?_
    · simp [Value.innerMembers]
    · simp [Value.nestingMembers]
  | @members w₁ key w₂ w₃ text w₄ v more ms before hkey between _ after _ ih ihmore =>
    intro s seen outer hs hobject
    have one := scans_member hs hobject before hkey between ih after
    have hcontainers : (s.plus (1 + v.inner)).containers = (byte '\x7b', seen) :: outer := hobject
    have comma := Scans.one (advance_commaObject hs.plus hcontainers) rfl
    have rest := ihmore (s.plus (1 + v.inner)) seen outer hs.plus hcontainers
    rw [plus_plus] at rest
    have whole := one.append (comma.append rest)
    refine whole.cast (congrArg s.plus ?_) ?_
    · rw [Value.innerMembers, List.length_cons]
      omega
    · rw [Value.nestingMembers]
      omega

theorem scans_text {body : List UInt8} {v : Document} (h : Text body v) :
    Scans Scan.start body (Scan.start.plus v.inner) v.nesting := by
  obtain ⟨w₁, text, w₂, before, hv, after, rfl⟩ := h
  have hout : Scan.start.Outside := ⟨rfl, rfl⟩
  have whole := ((scans_blank hout before).append (follows hv _ hout)).append (scans_blank hout.plus after)
  exact whole.cast rfl (by omega)

/-- The scan admits a text exactly when its document is within the limits. -/
theorem lexicalLimits_text {body : List UInt8} {v : Document} (h : Text body v) :
    lexicalLimits body = .ok () ↔ v.nesting ≤ DEPTH_LIMIT ∧ v.count ≤ VALUE_LIMIT := by
  obtain ⟨hfeed, hpeak, -⟩ := scans_text h
  rw [lexicalLimits_iff, hfeed, hpeak]
  have hdepth : Scan.start.depth = 0 := rfl
  have hvalues : (Scan.start.plus v.inner).values = v.count := rfl
  rw [hdepth, hvalues, Nat.zero_add]

/-- The scan's counters stay within one of the limits, so that no addition of it overflows. -/
theorem counters_bounded (bs : List UInt8) : ∀ s s' : Scan, s.depth ≤ DEPTH_LIMIT → s.values ≤ VALUE_LIMIT →
    bs.foldlM lexicalStep s = .ok s' → s'.depth ≤ DEPTH_LIMIT ∧ s'.values ≤ VALUE_LIMIT := by
  intro s s' hdepth hvalues h
  refine Checks.foldlM_keeps (P := fun t : Scan => t.depth ≤ DEPTH_LIMIT ∧ t.values ≤ VALUE_LIMIT) ?_ h
    ⟨hdepth, hvalues⟩
  intro t b t' _ ht hstep
  rw [lexicalStep_eq ht.1 ht.2] at hstep
  split_ifs at hstep with hdeep hmany
  cases hstep
  omega

end Document

end LabRuntime.Wire
