import Instrument.Catalog.Loading

namespace Instrument.Catalog.Shipped

def texts (ss : List String) : Datum := .list (ss.map .text)

def oscillatorAttributes : Datum := .record [
  ("wave", .record [
    ("type", .text "enum"), ("values", texts ["sine", "square", "sawtooth", "triangle"]),
    ("default", .text "sine"), ("description", .text "Waveform type")]),
  ("octave", .record [
    ("type", .text "integer"), ("min", .int (-2)), ("max", .int 2), ("step", .int 1),
    ("default", .int 0), ("description", .text "Octave offset")]),
  ("detune", .record [
    ("type", .text "integer"), ("min", .int (-100)), ("max", .int 100), ("step", .int 1),
    ("default", .int 0), ("unit", .text "cents"), ("description", .text "Fine pitch adjustment")]),
  ("volume", .record [
    ("type", .text "percentage"), ("min", .int 0), ("max", .int 100), ("step", .int 1),
    ("default", .int 50), ("description", .text "Oscillator volume"),
    ("canReference", texts ["variable_ref", "component_ref"]),
    ("acceptsModulation", texts ["lfo", "envelope"])]),
  ("pitch", .record [
    ("type", .text "number"), ("min", .int (-1200)), ("max", .int 1200), ("step", .int 1),
    ("default", .int 0), ("unit", .text "cents"), ("description", .text "Pitch offset"),
    ("modulationMode", .text "additive"), ("canReference", texts ["variable_ref"]),
    ("acceptsModulation", texts ["lfo", "envelope", "noise"])]),
  ("attack", .record [
    ("type", .text "time_ms"), ("min", .int 0), ("max", .int 2000), ("step", .int 100),
    ("default", .int 100), ("description", .text "Attack time"),
    ("canReference", texts ["variable_ref"])]),
  ("sustain", .record [
    ("type", .text "percentage"), ("min", .int 0), ("max", .int 100), ("step", .int 1),
    ("default", .int 50), ("description", .text "Sustain level"),
    ("canReference", texts ["variable_ref"])]),
  ("release", .record [
    ("type", .text "time_ms"), ("min", .int 0), ("max", .int 2000), ("step", .int 100),
    ("default", .int 500), ("description", .text "Release time"),
    ("canReference", texts ["variable_ref"])])]

def lfoAttributes : Datum := .record [
  ("rate", .record [
    ("type", .text "number"), ("min", .int 0), ("max", .int 20), ("step", .float 0.1),
    ("default", .int 5), ("unit", .text "Hz"), ("description", .text "LFO rate"),
    ("canReference", texts ["variable_ref"])]),
  ("depth", .record [
    ("type", .text "number"), ("min", .int 0), ("max", .int 50), ("step", .int 1),
    ("default", .int 10), ("unit", .text "cents"), ("description", .text "Modulation depth"),
    ("canReference", texts ["variable_ref"])]),
  ("wave", .record [
    ("type", .text "enum"), ("values", texts ["sine", "triangle", "square", "sawtooth"]),
    ("default", .text "sine"), ("description", .text "LFO waveform")])]

def envelopeAttributes : Datum := .record [
  ("attack", .record [
    ("type", .text "time_ms"), ("min", .int 0), ("max", .int 2000), ("step", .int 10),
    ("default", .int 100), ("description", .text "Attack time"),
    ("canReference", texts ["variable_ref"])]),
  ("decay", .record [
    ("type", .text "time_ms"), ("min", .int 0), ("max", .int 2000), ("step", .int 10),
    ("default", .int 100), ("description", .text "Decay time"),
    ("canReference", texts ["variable_ref"])]),
  ("sustain", .record [
    ("type", .text "percentage"), ("min", .int 0), ("max", .int 100), ("step", .int 1),
    ("default", .int 100), ("description", .text "Sustain level"),
    ("canReference", texts ["variable_ref"])]),
  ("release", .record [
    ("type", .text "time_ms"), ("min", .int 0), ("max", .int 5000), ("step", .int 50),
    ("default", .int 500), ("description", .text "Release time"),
    ("canReference", texts ["variable_ref"])])]

def noiseAttributes : Datum := .record [
  ("color", .record [
    ("type", .text "enum"), ("values", texts ["white", "pink", "brown"]),
    ("default", .text "white"), ("description", .text "Noise spectrum")]),
  ("depth", .record [
    ("type", .text "number"), ("min", .int 0), ("max", .int 50), ("step", .int 1),
    ("default", .int 5), ("unit", .text "cents"), ("description", .text "Modulation depth"),
    ("canReference", texts ["variable_ref"])])]

def filterAttributes : Datum := .record [
  ("frequency", .record [
    ("type", .text "frequency"), ("min", .int 20), ("max", .int 20000), ("step", .int 1),
    ("default", .int 20000), ("unit", .text "Hz"),
    ("description", .text "Filter cutoff frequency"),
    ("canReference", texts ["variable_ref", "component_ref"]),
    ("acceptsModulation", texts ["lfo", "envelope"])]),
  ("resonance", .record [
    ("type", .text "number"), ("min", .float 0.0001), ("max", .int 20), ("step", .float 0.1),
    ("default", .int 1), ("description", .text "Filter resonance (Q factor)"),
    ("canReference", texts ["variable_ref", "component_ref"]),
    ("acceptsModulation", texts ["lfo", "envelope"])])]

def compressorAttributes : Datum := .record [
  ("threshold", .record [
    ("type", .text "number"), ("min", .int (-100)), ("max", .int 0), ("step", .int 1),
    ("default", .int (-20)), ("unit", .text "dB"),
    ("description", .text "Compression threshold"), ("canReference", texts ["variable_ref"])]),
  ("ratio", .record [
    ("type", .text "number"), ("min", .int 1), ("max", .int 20), ("step", .float 0.1),
    ("default", .int 12), ("description", .text "Compression ratio"),
    ("canReference", texts ["variable_ref"])]),
  ("knee", .record [
    ("type", .text "number"), ("min", .int 0), ("max", .int 40), ("step", .int 1),
    ("default", .int 30), ("unit", .text "dB"), ("description", .text "Knee width"),
    ("canReference", texts ["variable_ref"])]),
  ("attack", .record [
    ("type", .text "time_sec"), ("min", .int 0), ("max", .int 1), ("step", .float 0.001),
    ("default", .float 0.003), ("description", .text "Attack time"),
    ("canReference", texts ["variable_ref"])]),
  ("release", .record [
    ("type", .text "time_sec"), ("min", .int 0), ("max", .int 3), ("step", .float 0.01),
    ("default", .float 0.25), ("description", .text "Release time"),
    ("canReference", texts ["variable_ref"])])]

def masterAttributes : Datum := .record [
  ("volume", .record [
    ("type", .text "percentage"), ("min", .int 0), ("max", .int 100), ("step", .int 1),
    ("default", .int 80), ("description", .text "Master volume"),
    ("canReference", texts ["variable_ref"])]),
  ("attack", .record [
    ("type", .text "time_ms"), ("min", .int 0), ("max", .int 2000), ("step", .int 10),
    ("default", .int 100), ("description", .text "Master attack time"),
    ("canReference", texts ["variable_ref"])]),
  ("decay", .record [
    ("type", .text "time_ms"), ("min", .int 0), ("max", .int 2000), ("step", .int 10),
    ("default", .int 100), ("description", .text "Master decay time"),
    ("canReference", texts ["variable_ref"])]),
  ("sustain", .record [
    ("type", .text "percentage"), ("min", .int 0), ("max", .int 100), ("step", .int 1),
    ("default", .int 100), ("description", .text "Master sustain level"),
    ("canReference", texts ["variable_ref"])]),
  ("release", .record [
    ("type", .text "time_ms"), ("min", .int 0), ("max", .int 2000), ("step", .int 10),
    ("default", .int 500), ("description", .text "Master release time"),
    ("canReference", texts ["variable_ref"])]),
  ("filter", .record [
    ("type", .text "component_ref"), ("acceptsComponents", texts ["filter"]),
    ("description", .text "Master filter")]),
  ("compressor", .record [
    ("type", .text "component_ref"), ("acceptsComponents", texts ["compressor"]),
    ("description", .text "Master compressor")]),
  ("envelope", .record [
    ("type", .text "component_ref"), ("acceptsComponents", texts ["envelope"]),
    ("description", .text "Master envelope")]),
  ("chord", .record [
    ("type", .text "enum"), ("valuesFrom", .text "chords"), ("default", .text "none"),
    ("allowCustom", .bool true), ("description", .text "Global chord")])]

def voiceAttributes : Datum := .record [
  ("pitch", .record [
    ("type", .text "number"), ("min", .int (-1200)), ("max", .int 1200), ("step", .int 1),
    ("default", .int 0), ("unit", .text "cents"),
    ("description", .text "Pitch offset for the scope"), ("modulationMode", .text "additive"),
    ("canReference", texts ["variable_ref"]),
    ("acceptsModulation", texts ["lfo", "envelope", "noise"])]),
  ("volume", .record [
    ("type", .text "percentage"), ("min", .int 0), ("max", .int 200), ("step", .int 1),
    ("default", .int 100), ("description", .text "Volume multiplier for the scope"),
    ("modulationMode", .text "multiplicative"), ("canReference", texts ["variable_ref"]),
    ("acceptsModulation", texts ["lfo", "envelope"])])]

def component (role description : String) (attributes : Datum) : Datum :=
  .record [("role", .text role), ("description", .text description), ("attributes", attributes)]

def components : Datum := .record [
  ("oscillator", component "source" "Audio oscillator that generates waveforms"
    oscillatorAttributes),
  ("lfo", component "modulator" "Low frequency oscillator for modulation"
    lfoAttributes),
  ("envelope", component "modulator" "ADSR envelope for modulation"
    envelopeAttributes),
  ("noise", component "modulator" "Noise source used as a random modulator"
    noiseAttributes),
  ("filter", component "processor" "Audio filter"
    filterAttributes),
  ("compressor", component "processor" "Dynamic range compressor"
    compressorAttributes)]

def triggers : Datum := .record [
  ("master", .record [
    ("description", .text "Master output stage"), ("canHaveAttributes", .bool true),
    ("canContainComponents", .bool true), ("canOverrideVariables", .bool true),
    ("attributes", masterAttributes)]),
  ("note", .record [
    ("description", .text "Note-specific scope"), ("requiresName", .bool true),
    ("canHaveAttributes", .bool true), ("canContainComponents", .bool true),
    ("canOverrideVariables", .bool true), ("attributes", voiceAttributes)]),
  ("key", .record [
    ("description", .text "Key-triggered scope"), ("requiresName", .bool true),
    ("canHaveAttributes", .bool true), ("canContainComponents", .bool true),
    ("canOverrideVariables", .bool true), ("attributes", voiceAttributes)])]

def data : Datum := .record [("components", components), ("triggers", triggers)]

def chord (name : String) (semitones : List Int) : Datum :=
  .record [("name", .text name), ("semitones", .list (semitones.map .int))]

def chordData : Datum := .record [("chords", .list [
  chord "major" [0, 4, 7],
  chord "minor" [0, 3, 7],
  chord "diminished" [0, 3, 6],
  chord "augmented" [0, 4, 8],
  chord "sus2" [0, 2, 7],
  chord "sus4" [0, 5, 7],
  chord "major7" [0, 4, 7, 11],
  chord "minor7" [0, 3, 7, 10],
  chord "dominant7" [0, 4, 7, 10],
  chord "power" [0, 7],
  chord "octave" [0, 12]])]

def path : String := "<default>"

def file : DataFile := ⟨path, .data data⟩

def chordFile : DataFile := ⟨"<default chords>", .data chordData⟩

def catalog : Except LoadError Catalog := load file chordFile

end Instrument.Catalog.Shipped
