import TabHost.Content.Basic

/-!
# Content of two kinds

A host may have tabs with content of two kinds. Content of either kind goes on as it
would by itself.
-/

namespace TabHost

variable {α β : Type}

/-- The reaction of content of one kind as one of content of two kinds. -/
def Reaction.map (f : α → β) (r : Reaction α) : Reaction β :=
  { content := f r.content, cost := r.cost, pushed := r.pushed }

instance [Content α] [Content β] : Content (α ⊕ β) where
  attach := Sum.map Content.attach Content.attach
  pointer e
    | .inl c => (Content.pointer e c).map .inl
    | .inr c => (Content.pointer e c).map .inr
  wheel e
    | .inl c => (Content.wheel e c).map .inl
    | .inr c => (Content.wheel e c).map .inr
  key e
    | .inl c => (Content.key e c).map .inl
    | .inr c => (Content.key e c).map .inr
  keyStatus e := Sum.elim (Content.keyStatus e) (Content.keyStatus e)
  notify n := Sum.map (Content.notify n) (Content.notify n)
  isVisible := Sum.elim Content.isVisible Content.isVisible
  isSafeToRunScript := Sum.elim Content.isSafeToRunScript Content.isSafeToRunScript
  backlog := Sum.elim Content.backlog Content.backlog
  backlog_pointer e
    | .inl c => Content.backlog_pointer e c
    | .inr c => Content.backlog_pointer e c
  backlog_wheel e
    | .inl c => Content.backlog_wheel e c
    | .inr c => Content.backlog_wheel e c
  backlog_key e
    | .inl c => Content.backlog_key e c
    | .inr c => Content.backlog_key e c

end TabHost
