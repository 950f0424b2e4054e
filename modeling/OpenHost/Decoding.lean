import OpenHost.Outcome

/-!
# Decoders and the languages they read

A decoder runs on a state that stands for the unread input, and `view` says
which symbols that state still has. Three judgements describe a decoder:
the language it reads, the inputs on which it panics, and its answer on one
given word. Each judgement is closed under sequencing, so a parser written
as a sequence of field decoders inherits all three from its fields.
-/

namespace OpenHost.Decoding

/-- A decoder returns a value with the state behind it, or an error, or panics. -/
abbrev Decoder (σ ε α : Type) := StateT σ (Outcome ε) α

variable {σ β ε α γ : Type} {view : σ → List β}

/-- Sequencing passes the state that the first decoder left behind. -/
@[simp] theorem bind_apply (d : Decoder σ ε α) (f : α → Decoder σ ε γ) (s : σ) :
    (d >>= f) s=d s >>= fun p => f p.1 p.2 := rfl

@[simp] theorem pure_apply (a : α) (s : σ) : (pure a : Decoder σ ε α) s=.ok (a,s) := rfl

@[simp] theorem map_apply (f : α → γ) (d : Decoder σ ε α) (s : σ) :
    (f <$> d) s=d s >>= fun p => .ok (f p.1,p.2) := rfl

/-- A computation that reads no input. -/
def lift (x : Outcome ε α) : Decoder σ ε α := fun s => x >>= fun a => .ok (a,s)

/-- A check that reads no input. -/
def check (x : Except ε α) : Decoder σ ε α := lift (Outcome.ofExcept x)

/-- A decoder that refuses every input. -/
def refuse (e : ε) : Decoder σ ε α := fun _ => .err e

@[simp] theorem lift_ok (a : α) (s : σ) :
    (lift (.ok a) : Decoder σ ε α) s=.ok (a,s) := rfl

@[simp] theorem lift_err (e : ε) (s : σ) :
    (lift (.err e) : Decoder σ ε α) s=.err e := rfl

@[simp] theorem lift_panic (s : σ) :
    (lift .panic : Decoder σ ε α) s=.panic := rfl

@[simp] theorem check_ok (a : α) (s : σ) :
    (check (.ok a) : Decoder σ ε α) s=.ok (a,s) := rfl

@[simp] theorem check_error (e : ε) (s : σ) :
    (check (.error e) : Decoder σ ε α) s=.err e := rfl

@[simp] theorem refuse_apply (e : ε) (s : σ) : (refuse e : Decoder σ ε α) s=.err e := rfl

/-- The decoder reads exactly the words that the relation gives a value, and
leaves everything behind the word unread. -/
structure Reads (view : σ → List β) (d : Decoder σ ε α) (G : α → List β → Prop) : Prop where
  /-- A returned value was spelled by the input that was consumed. -/
  sound : ∀ {s a t}, d s=.ok (a,t) → ∃ w, G a w ∧ view s=w++view t
  /-- Every spelling of a value is read as that value. -/
  complete : ∀ {s a w rest}, G a w → view s=w++rest → ∃ t, d s=.ok (a,t) ∧ view t=rest

/-- The decoder panics on exactly the inputs in the given set. -/
def PanicsOn (view : σ → List β) (d : Decoder σ ε α) (P : List β → Prop) : Prop :=
  ∀ s, d s=.panic ↔ P (view s)

/-- On every input that begins with the word, the decoder returns the value
and the rest if the condition holds, and an error if it does not. -/
def Answers (view : σ → List β) (d : Decoder σ ε α) (w : List β) (a : α) (valid : Prop) : Prop :=
  ∀ ⦃s rest⦄, view s=w++rest →
    (valid → ∃ t, d s=.ok (a,t) ∧ view t=rest) ∧ (¬valid → ∃ e, d s=.err e)

namespace Reads

theorem pure (a : α) : Reads view (Pure.pure a : Decoder σ ε α) fun b w => b=a ∧ w=[] where
  sound := by
    intro s b t h
    simp only [pure_apply,Outcome.ok.injEq,Prod.mk.injEq] at h
    obtain ⟨rfl,rfl⟩ := h
    exact ⟨[],⟨rfl,rfl⟩,rfl⟩
  complete := by
    rintro s b w rest ⟨rfl,rfl⟩ hv
    exact ⟨s,rfl,hv⟩

/-- A refusing decoder reads the empty language. -/
theorem refuse (e : ε) : Reads view (Decoding.refuse e : Decoder σ ε α) fun _ _ => False where
  sound := by
    intro s a t h
    cases h
  complete := by
    intro s a w rest h
    exact h.elim

/-- A computation reads the empty word, and only when it returns a value. -/
theorem lift (x : Outcome ε α) :
    Reads view (Decoding.lift x : Decoder σ ε α) fun a w => x=.ok a ∧ w=[] where
  sound := by
    intro s a t h
    cases x with
    | err e => cases h
    | panic => cases h
    | ok b =>
      simp only [lift_ok,Outcome.ok.injEq,Prod.mk.injEq] at h
      obtain ⟨rfl,rfl⟩ := h
      exact ⟨[],⟨rfl,rfl⟩,rfl⟩
  complete := by
    rintro s a w rest ⟨rfl,rfl⟩ hv
    exact ⟨s,rfl,hv⟩

/-- The language of a sequence is the concatenation of the languages. -/
theorem bind {d : Decoder σ ε α} {f : α → Decoder σ ε γ} {G : α → List β → Prop}
    {H : α → γ → List β → Prop} (hd : Reads view d G) (hf : ∀ a, Reads view (f a) (H a)) :
    Reads view (d >>= f) fun c w => ∃ a u v, w=u++v ∧ G a u ∧ H a c v where
  sound := by
    intro s c t h
    rw [bind_apply] at h
    obtain ⟨⟨a,s₁⟩,hs,ht⟩ := Outcome.bind_eq_ok.mp h
    obtain ⟨u,hu,hsu⟩ := hd.sound hs
    obtain ⟨v,hv,hsv⟩ := (hf a).sound ht
    refine ⟨u++v,⟨a,u,v,rfl,hu,hv⟩,?_⟩
    rw [hsu,hsv,List.append_assoc]
  complete := by
    rintro s c w rest ⟨a,u,v,rfl,hu,hv⟩ hs
    rw [List.append_assoc] at hs
    obtain ⟨s₁,hs₁,hr₁⟩ := hd.complete hu hs
    obtain ⟨t,ht,hr⟩ := (hf a).complete hv hr₁
    refine ⟨t,?_,hr⟩
    rw [bind_apply,hs₁,Outcome.ok_bind]
    exact ht

/-- A value built from what was read has the word of its part. -/
theorem map {d : Decoder σ ε α} {G : α → List β → Prop} (hd : Reads view d G) (f : α → γ) :
    Reads view (f <$> d) fun c w => ∃ a, c=f a ∧ G a w where
  sound := by
    intro s c t h
    rw [map_apply] at h
    obtain ⟨⟨a,s₁⟩,hs,ht⟩ := Outcome.bind_eq_ok.mp h
    obtain ⟨w,hw,hv⟩ := hd.sound hs
    simp only [Outcome.ok.injEq,Prod.mk.injEq] at ht
    obtain ⟨rfl,rfl⟩ := ht
    exact ⟨w,⟨a,rfl,hw⟩,hv⟩
  complete := by
    rintro s c w rest ⟨a,rfl,hw⟩ hv
    obtain ⟨t,ht,hr⟩ := hd.complete hw hv
    refine ⟨t,?_,hr⟩
    rw [map_apply,ht,Outcome.ok_bind]

/-- Equivalent descriptions of a language may replace each other. -/
theorem congr {d : Decoder σ ε α} {G H : α → List β → Prop} (hd : Reads view d G)
    (h : ∀ a w, G a w ↔ H a w) : Reads view d H where
  sound := by
    intro s a t hs
    obtain ⟨w,hw,hv⟩ := hd.sound hs
    exact ⟨w,(h a w).mp hw,hv⟩
  complete := fun hw hv => hd.complete ((h _ _).mpr hw) hv

/-- A check reads the empty word, and only when it passes. -/
theorem check (x : Except ε α) :
    Reads view (Decoding.check x : Decoder σ ε α) fun a w => x=.ok a ∧ w=[] :=
  (Reads.lift _).congr fun _ _ => and_congr_left' Outcome.ofExcept_eq_ok

/-- On more input the decoder returns the same value, and leaves what is more. -/
theorem extend {d : Decoder σ ε α} {G : α → List β → Prop} (hd : Reads view d G) {s s' t : σ}
    {a : α} {more : List β} (h : d s=.ok (a,t)) (hv : view s'=view s++more) :
    ∃ t', d s'=.ok (a,t') ∧ view t'=view t++more := by
  obtain ⟨w,hw,hs⟩ := hd.sound h
  rw [hs,List.append_assoc] at hv
  exact hd.complete hw hv

/-- On a word of the language the decoder answers with its value. -/
theorem answers {d : Decoder σ ε α} {G : α → List β → Prop} (hd : Reads view d G) {a : α}
    {w : List β} (h : G a w) : Answers view d w a True :=
  fun _ _ hv => ⟨fun _ => hd.complete h hv,fun hn => (hn trivial).elim⟩

end Reads

namespace PanicsOn

theorem pure (a : α) : PanicsOn view (Pure.pure a : Decoder σ ε α) fun _ => False :=
  fun s => by simp

theorem refuse (e : ε) : PanicsOn view (Decoding.refuse e : Decoder σ ε α) fun _ => False :=
  fun s => by simp

/-- A computation panics on every input or on none. -/
theorem lift (x : Outcome ε α) :
    PanicsOn view (Decoding.lift x : Decoder σ ε α) fun _ => x=.panic := by
  intro s
  cases x <;> simp

theorem check (x : Except ε α) :
    PanicsOn view (Decoding.check x : Decoder σ ε α) fun _ => False := by
  intro s
  cases x <;> simp

theorem congr {d : Decoder σ ε α} {P Q : List β → Prop} (hd : PanicsOn view d P)
    (h : ∀ v, P v ↔ Q v) : PanicsOn view d Q :=
  fun s => (hd s).trans (h _)

theorem map {d : Decoder σ ε α} {P : List β → Prop} (hp : PanicsOn view d P) (f : α → γ) :
    PanicsOn view (f <$> d) P := by
  intro s
  rw [map_apply,Outcome.bind_eq_panic,hp s]
  simp

/-- A sequence panics where its first decoder does, and where that decoder
reads a value behind which the next decoder panics. -/
theorem bind {d : Decoder σ ε α} {f : α → Decoder σ ε γ} {G : α → List β → Prop}
    {P : List β → Prop} {Q : α → List β → Prop} (hd : Reads view d G) (hp : PanicsOn view d P)
    (hf : ∀ a, PanicsOn view (f a) (Q a)) :
    PanicsOn view (d >>= f) fun v => P v ∨ ∃ a u rest, v=u++rest ∧ G a u ∧ Q a rest := by
  intro s
  rw [bind_apply,Outcome.bind_eq_panic,hp s]
  refine or_congr_right ⟨?_,?_⟩
  · rintro ⟨⟨a,t⟩,hs,ht⟩
    obtain ⟨u,hu,hv⟩ := hd.sound hs
    exact ⟨a,u,view t,hv,hu,(hf a t).mp ht⟩
  · rintro ⟨a,u,rest,hv,hu,hq⟩
    obtain ⟨t,ht,hr⟩ := hd.complete hu hv
    exact ⟨(a,t),ht,(hf a t).mpr (hr ▸ hq)⟩

/-- A sequence whose second decoder never panics panics where its first one does. -/
theorem bind_never {d : Decoder σ ε α} {f : α → Decoder σ ε γ} {P : List β → Prop}
    (hp : PanicsOn view d P) (hf : ∀ a, PanicsOn view (f a) fun _ => False) :
    PanicsOn view (d >>= f) P := by
  intro s
  rw [bind_apply,Outcome.bind_eq_panic,hp s]
  refine or_iff_left ?_
  rintro ⟨⟨a,t⟩,_,ht⟩
  exact (hf a t).mp ht

/-- A sequence whose first decoder reads its language without a panic. -/
theorem bind_of_never {d : Decoder σ ε α} {f : α → Decoder σ ε γ} {G : α → List β → Prop}
    {Q : α → List β → Prop} (hd : Reads view d G) (hp : PanicsOn view d fun _ => False)
    (hf : ∀ a, PanicsOn view (f a) (Q a)) :
    PanicsOn view (d >>= f) fun v => ∃ a u rest, v=u++rest ∧ G a u ∧ Q a rest :=
  (bind hd hp hf).congr fun _ => by rw [false_or]

end PanicsOn

namespace Answers

theorem pure (a : α) : Answers view (Pure.pure a : Decoder σ ε α) [] a True :=
  fun _ _ hv => ⟨fun _ => ⟨_,rfl,hv⟩,fun hn => (hn trivial).elim⟩

/-- A check answers with its value if there is one. -/
theorem check {x : Except ε α} {a : α} {valid : Prop} (hx : valid → x=.ok a)
    (hn : ¬valid → ∃ e, x=.error e) :
    Answers view (Decoding.check x : Decoder σ ε α) [] a valid := by
  intro s rest hv
  constructor
  · intro h
    rw [hx h]
    exact ⟨s,rfl,hv⟩
  · intro h
    obtain ⟨e,he⟩ := hn h
    rw [he]
    exact ⟨e,rfl⟩

theorem map {d : Decoder σ ε α} {w : List β} {a : α} {p : Prop} (hd : Answers view d w a p)
    (f : α → γ) : Answers view (f <$> d) w (f a) p := by
  intro s rest hv
  rw [map_apply]
  constructor
  · intro h
    obtain ⟨t,ht,hr⟩ := (hd hv).1 h
    rw [ht]
    exact ⟨t,rfl,hr⟩
  · intro h
    obtain ⟨e,he⟩ := (hd hv).2 h
    rw [he]
    exact ⟨e,rfl⟩

/-- A sequence answers a concatenation, and needs both conditions. -/
theorem bind {d : Decoder σ ε α} {f : α → Decoder σ ε γ} {u v : List β} {a : α} {c : γ}
    {p q : Prop} (hd : Answers view d u a p) (hf : Answers view (f a) v c q) :
    Answers view (d >>= f) (u++v) c (p ∧ q) := by
  intro s rest hs
  rw [List.append_assoc] at hs
  rw [bind_apply]
  by_cases hp : p
  · obtain ⟨t,ht,hr⟩ := (hd hs).1 hp
    rw [ht,Outcome.ok_bind]
    exact ⟨fun h => (hf hr).1 h.2,fun h => (hf hr).2 fun hq => h ⟨hp,hq⟩⟩
  · obtain ⟨e,he⟩ := (hd hs).2 hp
    rw [he]
    exact ⟨fun h => (hp h.1).elim,fun _ => ⟨e,rfl⟩⟩

/-- The word and the condition may be written in another way. -/
theorem congr {d : Decoder σ ε α} {w w' : List β} {a : α} {p q : Prop}
    (hd : Answers view d w a p) (hw : w=w') (h : p ↔ q) : Answers view d w' a q := by
  subst hw
  exact fun _ _ hv => ⟨fun hq => (hd hv).1 (h.mpr hq),fun hn => (hd hv).2 fun hp => hn (h.mp hp)⟩

end Answers

end OpenHost.Decoding
