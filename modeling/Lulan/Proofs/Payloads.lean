import Lulan.Payments.Payload
import Lulan.Proofs.Signatures

/-!
# What a signature covers

The payload of a template is the template with the timestamp and the body in their places, and
for the template of the built-in preset it determines both.
-/

namespace Lulan.Proofs

open Http (Bytes asBytes bodyMarker parseI64 signedPayloadBytes stripe timestampMarker)

section Loop

/-- The loop ends within as many turns as there are bytes, with both substitutions made. -/
lemma payload_ends {template : String} {timestamp : Int64} {body : Bytes} {fuel : Nat}
    (h : (Http.Payload.start template timestamp).rest.length < fuel) :
    Http.Payload.signedPayloadBytes fuel template timestamp body =
      some (signedPayloadBytes template timestamp body) := by
  have hmarker : Http.Payload.marker ≠ [] := by decide
  exact Lib.Text.splicing_ends hmarker h

lemma payload_of_some {template : String} {timestamp : Int64} {body payload : Bytes} {fuel : Nat}
    (h : Http.Payload.signedPayloadBytes fuel template timestamp body = some payload) :
    payload = signedPayloadBytes template timestamp body := by
  have hmore := Lib.While.run_mono (Nat.le_add_right fuel ((Http.Payload.start template timestamp).rest.length + 1)) h
  have hfuel : (Http.Payload.start template timestamp).rest.length <
      fuel + ((Http.Payload.start template timestamp).rest.length + 1) := by omega
  have hends : _ = some (signedPayloadBytes template timestamp body) := payload_ends hfuel
  rw [Http.Payload.signedPayloadBytes, hmore] at hends
  exact Option.some.inj hends

end Loop

section Parts

/-- A part of a template as it is written. -/
def Piece.source : Piece → List Char
  | .lit c => [c]
  | .timestamp => timestampMarker
  | .body => bodyMarker

/-- A template cut at its markers: between them no marker is left. -/
structure Cut (template : List Char) (ps : List Piece) : Prop where
  source : ps.flatMap Piece.source = template
  timestamps : ∀ w : List Char, w.map Piece.lit <:+: ps → ¬timestampMarker <:+: w
  bodies : ∀ w : List Char, w.map Piece.lit <:+: ps → ¬bodyMarker <:+: w

lemma pieces_lit {c : Char} {rest : List Char} (ht : ¬timestampMarker <+: c :: rest) (hb : ¬bodyMarker <+: c :: rest) :
    pieces 0 (c :: rest) = .lit c :: pieces 0 rest := by
  rw [pieces, if_neg ht, if_neg hb]

lemma pieces_induction {P : List Char → List Piece → Prop} (nil : P [] [])
    (timestamp : ∀ rest, P rest (pieces 0 rest) → P (timestampMarker ++ rest) (.timestamp :: pieces 0 rest))
    (body : ∀ rest, P rest (pieces 0 rest) → P (bodyMarker ++ rest) (.body :: pieces 0 rest))
    (lit : ∀ c rest, ¬timestampMarker <+: c :: rest → ¬bodyMarker <+: c :: rest → P rest (pieces 0 rest) →
      P (c :: rest) (.lit c :: pieces 0 rest)) (s : List Char) : P s (pieces 0 s) := by
  induction hn : s.length using Nat.strong_induction_on generalizing s with
  | _ n ih =>
  cases s with
  | nil => exact nil
  | cons c rest =>
    rw [List.length_cons] at hn
    by_cases ht : timestampMarker <+: c :: rest
    · obtain ⟨t, heq⟩ := ht
      have hlen := congrArg List.length heq
      have hmarker : timestampMarker.length = 11 := rfl
      rw [List.length_append, List.length_cons] at hlen
      rw [← heq, pieces_timestamp]
      exact timestamp t (ih t.length (by omega) t rfl)
    · by_cases hb : bodyMarker <+: c :: rest
      · obtain ⟨t, heq⟩ := hb
        have hlen := congrArg List.length heq
        have hmarker : bodyMarker.length = 6 := rfl
        rw [List.length_append, List.length_cons] at hlen
        rw [← heq, pieces_body]
        exact body t (ih t.length (by omega) t rfl)
      · rw [pieces_lit ht hb]
        exact lit c rest ht hb (ih rest.length (by omega) rest rfl)

lemma source_pieces (s : List Char) : (pieces 0 s).flatMap Piece.source = s := by
  apply pieces_induction (P := fun s ps => ps.flatMap Piece.source = s) rfl
  · intro rest ih
    rw [List.flatMap_cons, ih]
    rfl
  · intro rest ih
    rw [List.flatMap_cons, ih]
    rfl
  · intro c rest _ _ ih
    rw [List.flatMap_cons, ih]
    rfl

/-- Literals at the head of the parts are the head of the template. -/
lemma prefix_of_lits {w s : List Char} (h : w.map Piece.lit <+: pieces 0 s) : w <+: s := by
  obtain ⟨ps, hps⟩ := h
  have hsource := source_pieces s
  have hw : (w.map Piece.lit).flatMap Piece.source = w := by
    rw [List.flatMap_map]
    exact List.flatMap_singleton' w
  rw [← hps, List.flatMap_append, hw] at hsource
  exact ⟨_, hsource⟩

lemma ne_markers_of_lit {c : Char} {ps : List Piece} {s : List Char} (h : pieces 0 s = .lit c :: ps) :
    ¬timestampMarker <+: s ∧ ¬bodyMarker <+: s := by
  constructor
  · rintro ⟨t, rfl⟩
    rw [pieces_timestamp] at h
    cases h
  · rintro ⟨t, rfl⟩
    rw [pieces_body] at h
    cases h

lemma pieces_suffix {a b : List Piece} {s : List Char} (h : a ++ b = pieces 0 s) : ∃ t, b = pieces 0 t := by
  revert a b
  apply pieces_induction (P := fun _ ps => ∀ a b : List Piece, a ++ b = ps → ∃ t, b = pieces 0 t)
  · intro a b h
    exact ⟨[], (List.append_eq_nil_iff.mp h).2⟩
  · intro rest ih a b h
    rw [← pieces_timestamp] at h
    cases a with
    | nil => exact ⟨timestampMarker ++ rest, h⟩
    | cons p a =>
      rw [pieces_timestamp, List.cons_append, List.cons.injEq] at h
      exact ih a b h.2
  · intro rest ih a b h
    rw [← pieces_body] at h
    cases a with
    | nil => exact ⟨bodyMarker ++ rest, h⟩
    | cons p a =>
      rw [pieces_body, List.cons_append, List.cons.injEq] at h
      exact ih a b h.2
  · intro c rest ht hb ih a b h
    rw [← pieces_lit ht hb] at h
    cases a with
    | nil => exact ⟨c :: rest, h⟩
    | cons p a =>
      rw [pieces_lit ht hb, List.cons_append, List.cons.injEq] at h
      exact ih a b h.2

lemma not_marker_infix {marker w s : List Char} (hne : marker ≠ [])
    (hmarker : marker = timestampMarker ∨ marker = bodyMarker) (hw : w.map Piece.lit <:+: pieces 0 s) :
    ¬marker <:+: w := by
  rintro ⟨l, r, rfl⟩
  obtain ⟨a, b, hab⟩ := hw
  have hsplit : (a ++ l.map Piece.lit) ++ ((marker ++ r).map Piece.lit ++ b) = pieces 0 s := by
    rw [← hab]
    simp only [List.map_append, List.append_assoc]
  obtain ⟨t, ht⟩ := pieces_suffix hsplit
  have hprefix : marker <+: t := (List.prefix_append marker r).trans (prefix_of_lits ⟨b, ht⟩)
  obtain ⟨c, rest, rfl⟩ := List.exists_cons_of_ne_nil hne
  obtain ⟨htimestamp, hbody⟩ := ne_markers_of_lit ht.symm
  rcases hmarker with h | h
  · exact htimestamp (h ▸ hprefix)
  · exact hbody (h ▸ hprefix)

lemma cut_pieces (s : List Char) : Cut s (pieces 0 s) where
  source := source_pieces s
  timestamps _ hw := not_marker_infix (by decide) (.inl rfl) hw
  bodies _ hw := not_marker_infix (by decide) (.inr rfl) hw

end Parts

section Preset

/-- The byte of a full stop. -/
def stop : UInt8 := 0x2e

lemma stop_notMem_digits (ts : Int64) : stop ∉ asBytes (toString ts.toInt) := by
  intro h
  obtain ⟨c, hc, hstop⟩ := List.mem_flatMap.mp h
  have hdot : c = '.' := Char.toNat_inj.mp (toNat_of_mem_ascii (b := 0x2e) (by decide) hstop)
  rcases mem_toString_int hc with rfl | hd
  · cases hdot
  · rw [hdot] at hd
    cases hd

lemma instantiate_preset (ts : Int64) (body : Bytes) :
    instantiate stripe.signedPayload ts body = asBytes (toString ts.toInt) ++ stop :: body := by
  have hpieces : pieces 0 stripe.signedPayload.toList = [.timestamp, .lit '.', .body] := by decide
  have hdot : String.utf8EncodeChar '.' = [stop] := by decide
  rw [instantiate, hpieces]
  simp only [List.flatMap_cons, List.flatMap_nil, Piece.bytes, hdot, List.append_nil, List.cons_append, List.nil_append]

/-- The payload of the preset is cut at its first full stop. -/
lemma preset_injective {ts ts' : Int64} {body body' : Bytes}
    (h : instantiate stripe.signedPayload ts body = instantiate stripe.signedPayload ts' body') :
    ts = ts' ∧ body = body' := by
  have hsplit := Lib.Text.splitOnce_append (b := body) (stop_notMem_digits ts)
  have hsplit' := Lib.Text.splitOnce_append (b := body') (stop_notMem_digits ts')
  rw [instantiate_preset, instantiate_preset] at h
  rw [h, hsplit', Option.some.injEq, Prod.mk.injEq] at hsplit
  obtain ⟨hdigits, hbody⟩ := hsplit
  have hts := parseI64_toString ts
  rw [← asBytes_injective hdigits, parseI64_toString, Option.some.injEq] at hts
  exact ⟨hts.symm, hbody.symm⟩

end Preset

/-- The payload of a template: the loop ends with the bytes of its parts, cut at all its
markers, and for the template of the preset no two pairs have one payload. -/
structure Spliced (template : String) (timestamp : Int64) (body payload : Bytes) : Prop where
  ends : ∃ enough, ∀ fuel ≥ enough, Http.Payload.signedPayloadBytes fuel template timestamp body = some payload
  parts : ∃ ps, Cut template.toList ps ∧ payload = ps.flatMap (Piece.bytes timestamp body)
  separates : template = stripe.signedPayload → ∀ fuel timestamp' body',
    Http.Payload.signedPayloadBytes fuel template timestamp' body' = some payload → timestamp' = timestamp ∧ body' = body

/-- Every payload is the template with the timestamp and the body in their places. -/
theorem payload_spliced (template : String) (timestamp : Int64) (body : Bytes) :
    ∃ payload, Spliced template timestamp body payload := by
  refine ⟨signedPayloadBytes template timestamp body, ⟨_, fun fuel hfuel => payload_ends hfuel⟩, ?_, ?_⟩
  · exact ⟨pieces 0 template.toList, cut_pieces _, signedPayloadBytes_eq template timestamp body⟩
  · rintro rfl fuel timestamp' body' h
    have heq := payload_of_some h
    rw [signedPayloadBytes_eq, signedPayloadBytes_eq] at heq
    exact preset_injective heq.symm

end Lulan.Proofs
