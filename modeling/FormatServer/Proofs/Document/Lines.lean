import FormatServer.Document.Lines

/-!
# Lines are cut at every break

`Lines.ofChars` ends a line at each break and nowhere else: no line's content holds a carriage return
or a line feed, and a line that a carriage return alone closes is not followed by a line feed
(`Lines.wellCut_ofChars`). Together with `Lines.chars_ofChars` this determines the lines of a text.
-/

set_option autoImplicit false

namespace FormatServer

/-- No part of a line break occurs in the text. -/
def Unbroken (cs : List Char) : Prop := '\r' ∉ cs ∧ '\n' ∉ cs

theorem Unbroken.nil : Unbroken [] := ⟨List.not_mem_nil, List.not_mem_nil⟩

theorem Unbroken.cons {c : Char} {cs : List Char} (hr : c ≠ '\r') (hn : c ≠ '\n')
    (h : Unbroken cs) : Unbroken (c :: cs) := by
  simp only [Unbroken, List.mem_cons, not_or]
  exact ⟨⟨hr.symm, h.1⟩, hn.symm, h.2⟩

namespace Lines

/-- Closed lines and a last one, cut at every break of their text. -/
inductive WellCut : List Line → List Char → Prop where
  | last {last : List Char} (content : Unbroken last) : WellCut [] last
  | closed {l : Line} {ls : List Line} {last : List Char} (content : Unbroken l.content)
      (whole : l.ending = .carriageReturn → (chars ⟨ls, last⟩).head? ≠ some '\n')
      (rest : WellCut ls last) : WellCut (l :: ls) last

namespace WellCut

theorem push {c : Char} {ls : Lines} (hr : c ≠ '\r') (hn : c ≠ '\n')
    (h : WellCut ls.closed ls.last) : WellCut (ls.push c).closed (ls.push c).last := by
  obtain ⟨closed, last⟩ := ls
  cases h with
  | last content => exact .last (content.cons hr hn)
  | closed content whole rest => exact .closed (content.cons hr hn) whole rest

theorem pushLine {e : Ending} {ls : Lines}
    (whole : e = .carriageReturn → ls.chars.head? ≠ some '\n')
    (h : WellCut ls.closed ls.last) : WellCut (ls.pushLine e).closed (ls.pushLine e).last :=
  .closed .nil whole h

theorem unbroken_of_mem {last content : List Char} {ls : List Line} (h : WellCut ls last)
    (hc : content ∈ ls.map Line.content ++ [last]) : Unbroken content := by
  induction h with
  | last hlast =>
    obtain rfl : content = _ := by simpa using hc
    exact hlast
  | closed hl _ _ ih =>
    rcases List.mem_cons.1 hc with rfl | hc
    · exact hl
    · exact ih hc

end WellCut

theorem wellCut_ofChars (cs : List Char) : WellCut (ofChars cs).closed (ofChars cs).last := by
  fun_induction ofChars cs with
  | case1 => exact .last .nil
  | case2 cs ih => exact ih.pushLine fun h => absurd h (by decide)
  | case3 cs hcs ih =>
    refine ih.pushLine fun _ hn => ?_
    rw [chars_ofChars] at hn
    obtain ⟨cs', rfl⟩ := List.head?_eq_some_iff.1 hn
    exact hcs cs' rfl
  | case4 cs ih => exact ih.pushLine fun h => absurd h (by decide)
  | case5 c cs _ hr hn ih => exact ih.push hr hn

example : ofChars ['\r', '\r', '\n'] = ⟨[⟨[], .carriageReturn⟩, ⟨[], .both⟩], []⟩ := by decide

theorem unbroken_of_mem_contents {cs content : List Char}
    (h : content ∈ (ofChars cs).contents) : Unbroken content :=
  (wellCut_ofChars cs).unbroken_of_mem h

end Lines

end FormatServer
