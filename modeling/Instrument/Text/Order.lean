namespace Instrument.Text

def sorted (texts : List String) : List String := texts.mergeSort fun a b => !(b < a)

end Instrument.Text
